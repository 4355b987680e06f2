import ExtProc.Mutations

/-! The header mutations of a whole response, applied one after another. -/
namespace ExtProc

open Utf8 (Bytes)

variable {K : Crates} {p : FilterPipeline K} {s s' : StreamState K} {resp resp' : Response K}
  {ctx : HttpFilterContext K} {n : K.HeaderName} {o : Outcome K} {request : Request K}
  {headers : Option (List HeaderValue)} {ms : List Message} {cs : List Bytes}

/-- The response hooks keep the response they are lent, and edit it where it is. -/
structure FilterPipeline.EditsInPlace (p : FilterPipeline K) : Prop where
  response : ∀ ctx, ctx.responseHeader ≠ none →
    (p.executeHttpResponse ctx).ctx.responseHeader = some (p.executeHttpResponse ctx).lent
  responseBody : ∀ ctx body endOfStream, ctx.responseHeader ≠ none →
    (p.executeHttpResponseBody ctx body endOfStream).ctx.responseHeader ≠ none

/-- The messages of one response: headers alone, or headers and a body within the cap. -/
inductive ResponseStream (headers : Option (List HeaderValue)) : List Message → Prop
  | whole : ResponseStream headers [headersMessage .response ⟨headers, true⟩]
  | split {cs : List Bytes} (hne : cs ≠ []) (hcap : cs.flatten.length ≤ maxBodyAccumulation) :
      ResponseStream headers (closedStream .response headers cs)

/-- No hook changed the text under this name. -/
def LeftAlone (p : FilterPipeline K) (calls : List (HookCall K)) (n : K.HeaderName) : Prop :=
  ∀ c ∈ calls, ∀ resp resp', c.ctx.responseHeader = some resp →
    (p.left c).responseHeader = some resp' → valueMap resp.headers n = valueMap resp'.headers n

def Touches (K : Crates) (m : HeaderMutation) (n : K.HeaderName) : Prop :=
  n ∈ (mutationPatch K m).remove ∨ n ∈ (mutationPatch K m).set.map Prod.fst

/-- Every header map a hook leaves is plain. -/
def LeavesPlain (p : FilterPipeline K) (calls : List (HookCall K)) : Prop :=
  ∀ c ∈ calls, ∀ resp, (p.left c).responseHeader = some resp → Plain K resp.headers

/-- The mutations lead from the upstream headers to the map the last hook left, and touch no name
that all hooks left alone. -/
def Composes (p : FilterPipeline K) (hs : List HeaderValue) (os : List (Outcome K)) : Prop :=
  ∃ c resp, (invoked os).getLast? = some c ∧ (p.left c).responseHeader = some resp ∧
    applyMutations K (mutations (sent os)) (upstreamMap K hs) = valueMap resp.headers ∧
    ∀ n, LeftAlone p (invoked os) n → ∀ m ∈ mutations (sent os), ¬ Touches K m n

/-- A diff touches no name with the same text before and after. -/
theorem diff_not_touches (hK : K.Lawful) (hctx : ctx.responseHeader = some resp')
    (hold : Plain K resp.headers) (hnew : Plain K resp'.headers)
    (hsame : valueMap resp.headers n = valueMap resp'.headers n) :
    ∀ m ∈ (collectResponseHeaderMutationsDiff ctx (captureOriginalHeaders resp)).toList,
      ¬ Touches K m n := by
  have huntouched := (diff_leads hK hctx hold hnew).untouched hsame
  intro m hm
  have hsome := Option.mem_toList.mp hm
  rw [hsome] at huntouched
  intro htouch
  rcases htouch with hr | hset
  · exact huntouched.1 hr
  · exact huntouched.2 hset

theorem diff_apply (hK : K.Lawful) (hctx : ctx.responseHeader = some resp')
    (hold : Plain K resp.headers) (hnew : Plain K resp'.headers) :
    applyMutations K (collectResponseHeaderMutationsDiff ctx (captureOriginalHeaders resp)).toList
      (valueMap resp.headers) = valueMap resp'.headers :=
  (applyMutations_toList _ _).trans (diff_leads hK hctx hold hnew).apply_ofList

/-- Two diffs in a row: the second snapshot is of the response the first hook left. -/
theorem two_diffs_compose {resp₁ resp₂ : Response K} {ctx₁ ctx₂ : HttpFilterContext K}
    (hK : K.Lawful) (hctx₁ : ctx₁.responseHeader = some resp₁)
    (hctx₂ : ctx₂.responseHeader = some resp₂) (h₀ : Plain K resp.headers)
    (h₁ : Plain K resp₁.headers) (h₂ : Plain K resp₂.headers) :
    applyMutations K
      ((collectResponseHeaderMutationsDiff ctx₁ (captureOriginalHeaders resp)).toList ++
        (collectResponseHeaderMutationsDiff ctx₂ (captureOriginalHeaders resp₁)).toList)
      (valueMap resp.headers) = valueMap resp₂.headers := by
  rw [applyMutations_append, diff_apply hK hctx₁ h₀ h₁, diff_apply hK hctx₂ h₁ h₂]

/-- The context `execute_http_response` gets for upstream headers. -/
def headerCtx (s : StreamState K) (request : Request K) (headers : Option (List HeaderValue)) :
    HttpFilterContext K :=
  responseCtx s request (envoyHeadersToResponse K (headers.getD []))

/-- The diff over the run of `execute_http_response`. -/
def headerDiff (p : FilterPipeline K) (s : StreamState K) (request : Request K)
    (headers : Option (List HeaderValue)) : Option HeaderMutation :=
  collectResponseHeaderMutationsDiff (p.executeHttpResponse (headerCtx s request headers)).ctx
    (captureOriginalHeaders (envoyHeadersToResponse K (headers.getD [])))

/-- The reply to upstream headers, which `execute_http_response` let pass. -/
def headerOutcome (p : FilterPipeline K) (s : StreamState K) (request : Request K)
    (headers : Option (List HeaderValue)) : Outcome K :=
  ⟨.ok [Reply.responseHeaders (headerDiff p s request headers)],
    [.hook (.executeHttpResponse (headerCtx s request headers))]⟩

theorem whole_run (hc : p.Continues) (hdone : RequestPhaseDone s) (hq : s.request = some request) :
    (server p).replies s [headersMessage .response ⟨headers, true⟩] =
      [headerOutcome p s request headers] := by
  obtain ⟨o, s', hstep, hresp⟩ := endedResponse_run p s headers
  have hturn : (server p).step s (headersMessage .response ⟨headers, true⟩) = (o, s') := hstep
  have hran : HeaderHook p (s.setResponse (envoyHeadersToResponse K (headers.getD [])))
      (headerCtx s request headers) _ _ :=
    .ran hdone.responseFiltersExecuted (hc (.executeHttpResponse _))
  have ho := (hresp.empty_of hq rfl hran hdone.responseBody).1
  simp only [Machine.replies_singleton, hturn, ho]
  rfl

/-- The state behind upstream headers that open a body. -/
def headerState (p : FilterPipeline K) (s : StreamState K) (request : Request K)
    (headers : Option (List HeaderValue)) : StreamState K :=
  (s.setResponse
    (p.executeHttpResponse (headerCtx s request headers)).lent).setResponseFiltersExecuted

/-- The context the body hook gets: a new one, lent the response the first hook left. -/
def bodyCtx (p : FilterPipeline K) (s : StreamState K) (request : Request K)
    (headers : Option (List HeaderValue)) : HttpFilterContext K :=
  responseCtx s request (p.executeHttpResponse (headerCtx s request headers)).lent

theorem split_run (hc : p.Continues) (hdone : RequestPhaseDone s) (hq : s.request = some request)
    (hne : cs ≠ []) (hcap : cs.flatten.length ≤ maxBodyAccumulation) :
    (server p).replies s (closedStream .response headers cs) =
      headerOutcome p s request headers :: (List.replicate (cs.length - 1) silent ++
        [(runHandler (runResponsePipeline p)
          ((headerState p s request headers).setBody .response cs.flatten)).1]) := by
  obtain ⟨o, s', hstep, hhead⟩ := openedResponse_run p s headers
  obtain ⟨rfl, rfl⟩ := hhead.continued_of hc hq rfl
  exact (closed_run hstep rfl hdone.responseBody hne hcap).1

/-- The end of a split response without a body: the second diff finds nothing. -/
theorem split_end_empty (hq : s.request = some request) :
    (runHandler (runResponsePipeline p)
        ((headerState p s request headers).setBody .response [])).1 =
      ⟨.ok [Reply.responseHeaders (collectResponseHeaderMutationsDiff
        (bodyCtx p s request headers)
        (captureOriginalHeaders (p.executeHttpResponse (headerCtx s request headers)).lent))],
        []⟩ := by
  obtain ⟨o, s', hrun, hresp⟩ := runResponsePipeline_run p
    ((headerState p s request headers).setBody .response [])
  rw [hrun]
  exact (hresp.empty_of hq rfl (.skipped rfl) rfl).1

/-- The end of a split response with a body: the second diff is over the run of the body hook. -/
theorem split_end {D : Bytes} (hc : p.Continues) (hq : s.request = some request) (hD : D ≠ []) :
    (runHandler (runResponsePipeline p)
        ((headerState p s request headers).setBody .response D)).1 =
      ⟨.ok (responseReplies (collectResponseHeaderMutationsDiff
          (p.executeHttpResponseBody (bodyCtx p s request headers) (some D) true).ctx
          (captureOriginalHeaders (p.executeHttpResponse (headerCtx s request headers)).lent))
          (leftBody p .response (bodyCtx p s request headers) D)),
        [.hook (.executeHttpResponseBody (bodyCtx p s request headers) (some D) true)]⟩ := by
  obtain ⟨o, s', hrun, hresp⟩ := runResponsePipeline_run p
    ((headerState p s request headers).setBody .response D)
  rw [hrun]
  exact (hresp.continued_of hc hq rfl (.skipped rfl) hD).1

/-- What the first hook of a response leaves. -/
theorem header_left (hedit : p.EditsInPlace) (s : StreamState K) (request : Request K)
    (headers : Option (List HeaderValue)) :
    (p.left (.executeHttpResponse (headerCtx s request headers))).responseHeader =
      some (p.executeHttpResponse (headerCtx s request headers)).lent :=
  hedit.response _ (by simp [headerCtx, responseCtx, HttpFilterContext.lend])

/-- What the body hook leaves. -/
theorem body_left (hedit : p.EditsInPlace) (s : StreamState K) (request : Request K)
    (headers : Option (List HeaderValue)) (D : Bytes) :
    ∃ resp, (p.left (.executeHttpResponseBody (bodyCtx p s request headers) (some D) true)
      ).responseHeader = some resp :=
  Option.ne_none_iff_exists'.mp
    (hedit.responseBody _ _ _ (by simp [bodyCtx, responseCtx, HttpFilterContext.lend]))

theorem mutations_headerOutcome :
    mutations (headerOutcome p s request headers).sent =
      (headerDiff p s request headers).toList :=
  mutations_responseHeaders _

/-- The hook calls of a response whose headers and body are answered apart. -/
theorem invoked_split (k : Nat) (replies : List ProcessingResponse) (log : List (Event K)) :
    invoked (headerOutcome p s request headers ::
      (List.replicate k silent ++ [⟨.ok replies, log⟩])) =
      .executeHttpResponse (headerCtx s request headers) :: callsOf log := by
  simp [headerOutcome]

theorem mutations_split (k : Nat) (replies : List ProcessingResponse) (log : List (Event K)) :
    mutations (sent (headerOutcome p s request headers ::
      (List.replicate k silent ++ [⟨.ok replies, log⟩]))) =
      (headerDiff p s request headers).toList ++ mutations replies := by
  simp only [sent_cons, sent_append, sent_silent, sent_nil, sent_mk, mutations_append,
    mutations_headerOutcome, List.nil_append, List.append_nil]

section Response
variable (hK : K.Lawful) (hc : p.Continues) (hedit : p.EditsInPlace) (hdone : RequestPhaseDone s)
  (hup : PlainUpstream K (headers.getD []))
include hK hc hedit hdone hup

/-- Headers that end the stream: one hook, one diff. -/
theorem whole_composes (hplain : LeavesPlain p
      (invoked ((server p).replies s [headersMessage .response ⟨headers, true⟩]))) :
    Composes p (headers.getD [])
      ((server p).replies s [headersMessage .response ⟨headers, true⟩]) := by
  obtain ⟨request, hq⟩ := hdone.request
  rw [whole_run hc hdone hq] at hplain ⊢
  have hleft := header_left hedit s request headers
  have h₀ := hup.plain hK
  have h₁ := hplain _ List.mem_cons_self _ hleft
  have hms : mutations (sent [headerOutcome p s request headers]) =
      (headerDiff p s request headers).toList := mutations_headerOutcome
  refine ⟨_, _, rfl, hleft, ?_, ?_⟩
  · rw [hms, ← hup.valueMap_eq hK]
    exact diff_apply hK hleft h₀ h₁
  · intro n halone m hm
    rw [hms] at hm
    exact diff_not_touches hK hleft h₀ h₁ (halone _ List.mem_cons_self _ _ rfl hleft) m hm

/-- Headers and no body: the diff at the end adds nothing to the one at header time. -/
theorem split_empty_composes (hne : cs ≠ []) (hempty : cs.flatten = [])
    (hplain : LeavesPlain p (invoked ((server p).replies s (closedStream .response headers cs)))) :
    Composes p (headers.getD []) ((server p).replies s (closedStream .response headers cs)) := by
  obtain ⟨request, hq⟩ := hdone.request
  rw [split_run hc hdone hq hne (by simp [hempty]), hempty, split_end_empty hq] at hplain ⊢
  have hleft := header_left hedit s request headers
  have hkept : (bodyCtx p s request headers).responseHeader =
    some (p.executeHttpResponse (headerCtx s request headers)).lent := rfl
  rw [invoked_split] at hplain
  have h₀ := hup.plain hK
  have h₁ := hplain _ List.mem_cons_self _ hleft
  refine ⟨.executeHttpResponse (headerCtx s request headers), _, ?_, hleft, ?_, ?_⟩
  · rw [invoked_split]
    rfl
  · rw [← hup.valueMap_eq hK, mutations_split, mutations_responseHeaders]
    exact two_diffs_compose hK hleft hkept h₀ h₁ h₁
  · intro n halone m hm
    rw [invoked_split] at halone
    rw [mutations_split, mutations_responseHeaders] at hm
    rcases List.mem_append.mp hm with hm | hm
    · exact diff_not_touches hK hleft h₀ h₁ (halone _ List.mem_cons_self _ _ rfl hleft) m hm
    · exact diff_not_touches hK hkept h₁ h₁ rfl m hm

/-- Headers and a body: one diff at header time, one when the body ends. -/
theorem split_body_composes (hbody : cs.flatten ≠ [])
    (hcap : cs.flatten.length ≤ maxBodyAccumulation)
    (hplain : LeavesPlain p (invoked ((server p).replies s (closedStream .response headers cs)))) :
    Composes p (headers.getD []) ((server p).replies s (closedStream .response headers cs)) := by
  obtain ⟨request, hq⟩ := hdone.request
  rw [split_run hc hdone hq (ne_nil_of_flatten hbody) hcap, split_end hc hq hbody] at hplain ⊢
  rw [invoked_split] at hplain
  have hleft := header_left hedit s request headers
  obtain ⟨resp₂, hleft₂⟩ := body_left hedit s request headers cs.flatten
  have h₀ := hup.plain hK
  have h₁ : Plain K (p.executeHttpResponse (headerCtx s request headers)).lent.headers :=
    hplain (.executeHttpResponse (headerCtx s request headers)) List.mem_cons_self _ hleft
  have h₂ : Plain K resp₂.headers :=
    hplain (.executeHttpResponseBody (bodyCtx p s request headers) (some cs.flatten) true)
      (List.mem_cons_of_mem _ List.mem_cons_self) _ hleft₂
  refine ⟨.executeHttpResponseBody (bodyCtx p s request headers) (some cs.flatten) true, resp₂,
    ?_, hleft₂, ?_, ?_⟩
  · rw [invoked_split]
    rfl
  · rw [← hup.valueMap_eq hK, mutations_split, mutations_responseReplies]
    exact two_diffs_compose hK hleft hleft₂ h₀ h₁ h₂
  · intro n halone m hm
    rw [invoked_split] at halone
    rw [mutations_split, mutations_responseReplies] at hm
    rcases List.mem_append.mp hm with hm | hm
    · have hsame := halone (.executeHttpResponse (headerCtx s request headers))
        List.mem_cons_self _ _ rfl hleft
      exact diff_not_touches hK hleft h₀ h₁ hsame m hm
    · have hsame := halone
        (.executeHttpResponseBody (bodyCtx p s request headers) (some cs.flatten) true)
        (List.mem_cons_of_mem _ List.mem_cons_self) _ _ rfl hleft₂
      exact diff_not_touches hK hleft₂ h₁ h₂ hsame m hm

/-- The header mutations of a response, applied in order, lead from the upstream headers to what
the response hooks left, and leave alone what the hooks left alone. -/
theorem mutations_compose (hms : ResponseStream headers ms)
    (hplain : LeavesPlain p (invoked ((server p).replies s ms))) :
    Composes p (headers.getD []) ((server p).replies s ms) := by
  cases hms with
  | whole => exact whole_composes hK hc hedit hdone hup hplain
  | split hne hcap =>
    rename_i cs
    by_cases hempty : cs.flatten = []
    · exact split_empty_composes hK hc hedit hdone hup hne hempty hplain
    · exact split_body_composes hK hc hedit hdone hup hempty hcap hplain

end Response

section Tagging

/-- The response of a context with one more header. -/
def tag (name : httpCrates.HeaderName) (ctx : HttpFilterContext httpCrates) : Response httpCrates :=
  let resp := ctx.responseHeader.getD plainResponse
  { resp with headers := resp.headers.append name ⟨[0x31], by decide⟩ }

/-- A pipeline whose response hooks each add a header. -/
def tagging : FilterPipeline httpCrates :=
  { passAll with
    executeHttpResponse := fun ctx =>
      ⟨{ ctx with responseHeader := some (tag ⟨"x-first", by decide⟩ ctx) },
        tag ⟨"x-first", by decide⟩ ctx, .ok .«continue»⟩
    executeHttpResponseBody := fun ctx body _ =>
      ⟨{ ctx with responseHeader := some (tag ⟨"x-second", by decide⟩ ctx) }, body,
        .ok .«continue»⟩ }

theorem tagging_continues : tagging.Continues := by
  intro c
  cases c <;> rfl

theorem tagging_editsInPlace : tagging.EditsInPlace where
  response _ _ := rfl
  responseBody _ _ _ _ := Option.some_ne_none _

def upstreamHtml : List HeaderValue :=
  [⟨":status", "200", []⟩, ⟨"content-type", "text/html", []⟩]

theorem upstreamHtml_plain : PlainUpstream httpCrates upstreamHtml where
  parses := by
    have hregular : regular upstreamHtml = [⟨"content-type", "text/html", []⟩] := by decide
    intro hv hmem
    obtain rfl := List.mem_singleton.mp (hregular ▸ hmem)
    exact ⟨⟨"content-type", by decide⟩, ⟨Utf8.asBytes "text/html", by decide⟩, by decide,
      by decide, by decide⟩
  distinct := by decide

theorem tags_compose :
    Composes tagging upstreamHtml
      ((server tagging).replies requested (closedStream .response (some upstreamHtml) [[1]])) := by
  have hdone : RequestPhaseDone requested := ⟨⟨rfl, rfl, rfl⟩, _, rfl⟩
  have hup : PlainUpstream httpCrates ((some upstreamHtml).getD []) := upstreamHtml_plain
  have hstream : ResponseStream (some upstreamHtml)
      (closedStream .response (some upstreamHtml) [[1]]) :=
    .split (List.cons_ne_nil _ _) (by decide)
  apply mutations_compose httpCrates_lawful tagging_continues tagging_editsInPlace hdone hup hstream
  rw [split_run tagging_continues hdone rfl (List.cons_ne_nil _ _) (by decide),
    split_end tagging_continues rfl (by simp)]
  intro c hc resp hresp
  rw [invoked_split, callsOf_hook, callsOf_nil] at hc
  rcases List.mem_pair.mp hc with rfl | rfl
  · obtain rfl := Option.some.inj hresp
    exact ⟨by decide, by decide⟩
  · obtain rfl := Option.some.inj hresp
    exact ⟨by decide, by decide⟩

end Tagging

end ExtProc
