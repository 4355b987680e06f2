import ExtProc.Composition
import ExtProc.Frame

/-! Response headers that end the stream against the same headers ahead of an empty body. -/
namespace ExtProc

variable {K : Crates} {p : FilterPipeline K} {s s' : StreamState K} {resp : Response K}
  {ctx : HttpFilterContext K} {o : Outcome K} {request : Request K}
  {headers : Option (List HeaderValue)} {e : FilterError}

/-- Both ways call `execute_http_response` once, on one context, answer alike and leave the request
side alone. -/
structure PathsAgree (s : StreamState K) (request : Request K) (headers : Option (List HeaderValue))
    (ended opened : Outcome K × StreamState K) : Prop where
  outcome : opened.1 = ended.1
  call : ended.1.calls = [.executeHttpResponse (headerCtx s request headers)]
  answer : (∃ st, ended.1.replies = .error st) ∨
    ∃ mutation, ended.1.replies = .ok [Reply.responseHeaders mutation]
  endedFrame : SameRequestSide s ended.2
  openedFrame : SameRequestSide s opened.2

/-- No hook is invoked, and names that do not repeat give no mutation. -/
structure EndsQuietly (resp : Response K) (o : Outcome K) : Prop where
  noHook : o.calls = []
  reply : ∃ mutation, o.replies = .ok [Reply.responseHeaders mutation] ∧
    ((resp.headers.iter.map Prod.fst).Nodup → mutation = none)

/-- Against its own snapshot, a response whose names do not repeat shows no difference. -/
theorem diff_self_eq_none (hK : K.Lawful) (hctx : ctx.responseHeader = some resp)
    (hn : (resp.headers.iter.map Prod.fst).Nodup) :
    collectResponseHeaderMutationsDiff ctx (captureOriginalHeaders resp) = none := by
  refine (diff_eq_none_iff hK hctx).mpr ⟨fun n hmem => hmem, fun n => lastText_eq_iff.mpr ?_⟩
  intro v hv w hw
  have hone := Multimap.getAll_eq_singleton hn (Multimap.mem_getAll.mp hv)
  rw [hone, List.mem_singleton] at hw
  exact congrArg (textOf K) hw.symm

theorem ResponseRun.failed_of (h : ResponseRun p s o s') (hq : s.request = some request)
    (hp : s.response = some resp) (hx : s.responseFiltersExecuted = false)
    (he : (p.executeHttpResponse (responseCtx s request resp)).result = .error e) :
    o = ⟨.error (Status.internal e), [.hook (.executeHttpResponse (responseCtx s request resp))]⟩ := by
  cases h with
  | noRequest hq' => simp [hq] at hq'
  | noResponse _ hp' => simp [hp] at hp'
  | failed hq' hp' hx' he' =>
    obtain rfl := Option.some.inj (hq.symm.trans hq')
    obtain rfl := Option.some.inj (hp.symm.trans hp')
    obtain rfl := Except.error.inj (he.symm.trans he')
    rfl
  | rejected hq' hp' hx' hr =>
    obtain rfl := Option.some.inj (hq.symm.trans hq')
    obtain rfl := Option.some.inj (hp.symm.trans hp')
    simp [he] at hr
  | bodyFailed hq' hp' hf hb | bodyRejected hq' hp' hf hb | done hq' hp' hf hb =>
    obtain rfl := Option.some.inj (hq.symm.trans hq')
    obtain rfl := Option.some.inj (hp.symm.trans hp')
    cases hf with
    | ran hx' hc => simp [he] at hc
    | skipped hx' => simp [hx] at hx'

theorem HeaderRun.failed_of (h : HeaderRun p s o s') (hq : s.request = some request)
    (hp : s.response = some resp)
    (he : (p.executeHttpResponse (responseCtx s request resp)).result = .error e) :
    o = ⟨.error (Status.internal e), [.hook (.executeHttpResponse (responseCtx s request resp))]⟩ := by
  cases h with
  | noRequest hq' => simp [hq] at hq'
  | noResponse _ hp' => simp [hp] at hp'
  | failed hq' hp' he' =>
    obtain rfl := Option.some.inj (hq.symm.trans hq')
    obtain rfl := Option.some.inj (hp.symm.trans hp')
    obtain rfl := Except.error.inj (he.symm.trans he')
    rfl
  | rejected hq' hp' hr | done hq' hp' hr =>
    obtain rfl := Option.some.inj (hq.symm.trans hq')
    obtain rfl := Option.some.inj (hp.symm.trans hp')
    simp [he] at hr

section Paths
variable (hq : s.request = some request)
include hq

/-- Headers ahead of a body, when the hook lets them pass. -/
theorem opened_of_continue
    (hc : (p.executeHttpResponse (headerCtx s request headers)).result = .ok .«continue») :
    handle p s (.responseHeaders ⟨headers, false⟩) =
      (headerOutcome p s request headers, headerState p s request headers) := by
  obtain ⟨o, s', hstep, hhead⟩ := openedResponse_run p s headers
  obtain ⟨rfl, rfl⟩ := hhead.done_of hq rfl hc
  exact hstep

/-- Whichever way the headers come, the hook's answer decides the outcome. -/
theorem paths_outcome (hb : s.responseBody = []) (hx : s.responseFiltersExecuted = false)
    (hno : ∀ r, (p.executeHttpResponse (headerCtx s request headers)).result ≠ .ok (.reject r)) :
    ∃ o, (handle p s (.responseHeaders ⟨headers, true⟩)).1 = o ∧
      (handle p s (.responseHeaders ⟨headers, false⟩)).1 = o ∧
      o.calls = [.executeHttpResponse (headerCtx s request headers)] ∧
      ((∃ st, o.replies = .error st) ∨
        ∃ mutation, o.replies = .ok [Reply.responseHeaders mutation]) := by
  obtain ⟨ended, _, hended, hresp⟩ := endedResponse_run p s headers
  obtain ⟨opened, _, hopened, hhead⟩ := openedResponse_run p s headers
  have hfirst : (handle p s (.responseHeaders ⟨headers, true⟩)).1 = ended :=
    congrArg Prod.fst hended
  have hsecond : (handle p s (.responseHeaders ⟨headers, false⟩)).1 = opened :=
    congrArg Prod.fst hopened
  rw [hfirst, hsecond]
  cases hran : (p.executeHttpResponse (headerCtx s request headers)).result with
  | error e =>
    obtain rfl := hresp.failed_of hq rfl hx hran
    obtain rfl := hhead.failed_of hq rfl hran
    exact ⟨_, rfl, rfl, rfl, Or.inl ⟨_, rfl⟩⟩
  | ok action =>
    cases action with
    | reject r => exact (hno r hran).elim
    | «continue» =>
      obtain ⟨rfl, -⟩ := hresp.empty_of hq rfl (.ran hx hran) hb
      obtain ⟨rfl, -⟩ := hhead.done_of hq rfl hran
      exact ⟨_, rfl, rfl, rfl, Or.inr ⟨_, rfl⟩⟩

/-- The end of a response without a body, behind headers the hook let pass. -/
theorem emptyBody_quiet (hK : K.Lawful) (hb : s.responseBody = []) :
    EndsQuietly (p.executeHttpResponse (headerCtx s request headers)).lent
      (handle p (headerState p s request headers) (.responseBody ⟨[], true⟩)).1 := by
  have hempty : (headerState p s request headers).body .response = [] := hb
  have hcap : ((headerState p s request headers).body .response).length +
      ([] : Utf8.Bytes).length ≤ maxBodyAccumulation := by
    simp [hempty]
  have hlast := handle_lastChunk (p := p) hcap
  rw [hempty, List.append_nil] at hlast
  have hturn : handle p (headerState p s request headers) (.responseBody ⟨[], true⟩) = _ := hlast
  rw [hturn]
  simp only [sidePipeline, split_end_empty hq]
  exact ⟨rfl, _, rfl, fun hn => diff_self_eq_none hK rfl hn⟩

end Paths

/-- The two ways through response headers agree, and the empty body behind the second repeats
nothing. -/
theorem response_paths_agree (hK : K.Lawful) (hq : s.request = some request)
    (hb : s.responseBody = []) (hx : s.responseFiltersExecuted = false)
    (hno : ∀ r, (p.executeHttpResponse (headerCtx s request headers)).result ≠ .ok (.reject r)) :
    PathsAgree s request headers (handle p s (.responseHeaders ⟨headers, true⟩))
        (handle p s (.responseHeaders ⟨headers, false⟩)) ∧
      ∀ replies, (handle p s (.responseHeaders ⟨headers, false⟩)).1.replies = .ok replies →
        EndsQuietly (p.executeHttpResponse (headerCtx s request headers)).lent
          (handle p (handle p s (.responseHeaders ⟨headers, false⟩)).2
            (.responseBody ⟨[], true⟩)).1 := by
  obtain ⟨o, hended, hopened, hcall, hanswer⟩ := paths_outcome hq hb hx hno
  have hframe := fun eos => (handle_run p s (.responseHeaders ⟨headers, eos⟩)).undisturbed
  refine ⟨⟨hopened.trans hended.symm, ?_, ?_, hframe true, hframe false⟩, ?_⟩
  · rw [hended]
    exact hcall
  · rw [hended]
    exact hanswer
  · intro replies hreplies
    cases hran : (p.executeHttpResponse (headerCtx s request headers)).result with
    | error e =>
      obtain ⟨opened, _, hstep, hhead⟩ := openedResponse_run p s headers
      obtain rfl := hhead.failed_of hq rfl hran
      have hfailed : (handle p s (.responseHeaders ⟨headers, false⟩)).1 = _ :=
        congrArg Prod.fst hstep
      rw [hfailed] at hreplies
      cases hreplies
    | ok action =>
      cases action with
      | reject r => exact (hno r hran).elim
      | «continue» =>
        rw [opened_of_continue hq hran]
        exact emptyBody_quiet hq hK hb

/-- A filter that adds a header: both ways send the same mutation, and the empty body none. -/
theorem tagged_paths_agree :
    PathsAgree requested plainRequest (some upstreamHtml)
        (handle tagging requested (.responseHeaders ⟨some upstreamHtml, true⟩))
        (handle tagging requested (.responseHeaders ⟨some upstreamHtml, false⟩)) ∧
      (handle tagging requested (.responseHeaders ⟨some upstreamHtml, true⟩)).1.replies =
        .ok [Reply.responseHeaders (some ⟨[headerValueOption "x-first" "1"], []⟩)] ∧
      EndsQuietly
        (tagging.executeHttpResponse (headerCtx requested plainRequest (some upstreamHtml))).lent
        (handle tagging (handle tagging requested (.responseHeaders ⟨some upstreamHtml, false⟩)).2
          (.responseBody ⟨[], true⟩)).1 := by
  have hno : ∀ r, (tagging.executeHttpResponse
      (headerCtx requested plainRequest (some upstreamHtml))).result ≠ .ok (.reject r) := by
    intro r hr
    cases hr
  have hagree := response_paths_agree httpCrates_lawful rfl rfl rfl hno
  exact ⟨hagree.1, by decide, hagree.2 _ rfl⟩

end ExtProc
