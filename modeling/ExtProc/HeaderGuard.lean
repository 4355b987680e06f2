import ExtProc.Phases

/-! Response headers Envoy is told to pass on, and the filters they went through. -/
namespace ExtProc

open Utf8 (Bytes)

variable {K : Crates} {p : FilterPipeline K} {s s' : StreamState K} {side : Side}
  {ctx : HttpFilterContext K} {o : Outcome K} {request : Request K} {resp : Response K}
  {replies : Except Status (List ProcessingResponse)} {events : List (Event K)}
  {res : Except Status (HttpFilterContext K × Option ImmediateResponse)}

/-- Some reply lets response headers pass. -/
def PassesHeaders (o : Outcome K) : Prop :=
  ∃ replies reply headers, o.replies = .ok replies ∧ reply ∈ replies ∧
    reply.response = some (.responseHeaders headers)

def HookCall.isExecuteHttpResponse : HookCall K → Bool
  | .executeHttpResponse _ => true
  | _ => false

/-- The calls of `execute_http_response`. -/
def Outcome.headerFilters (o : Outcome K) : List (HookCall K) :=
  o.calls.filter HookCall.isExecuteHttpResponse

/-- `execute_http_response` was invoked once, on a context lent `resp`, and continued. -/
def Filtered (p : FilterPipeline K) (resp : Response K) (o : Outcome K) : Prop :=
  ∃ ctx, o.headerFilters = [.executeHttpResponse ctx] ∧ ctx.responseHeader = some resp ∧
    p.result (.executeHttpResponse ctx) = .ok .«continue»

/-- Headers pass only through the filters, and where these are not invoked the message fails. -/
structure HeadersGuarded (p : FilterPipeline K) (resp : Response K) (o : Outcome K) : Prop where
  filtered : PassesHeaders o → Filtered p resp o
  refused : o.headerFilters = [] → ∃ st, o.replies = .error st

/-- There is a body, and its hook fails on it. -/
def FailsOnBody (p : FilterPipeline K) (side : Side) (ctx : HttpFilterContext K) (b : Bytes) :
    Prop :=
  b ≠ [] ∧ ∃ e, (p.executeBody side ctx (some b) true).result = .error e

/-- The header filters count as run already, and no body hook fails in their place. -/
def SkipsHeaderFilters (p : FilterPipeline K) (s : StreamState K) (resp : Response K) : Prop :=
  s.responseFiltersExecuted = true ∧ ∃ request, s.request = some request ∧
    ¬ FailsOnBody p .response (responseCtx s request resp) s.responseBody

/-- Response headers no filter sees: they open a body and there is no request, or they end the
stream in a state that counts the header filters as run. -/
def Unguarded (p : FilterPipeline K) (s : StreamState K) (h : HttpHeaders) : Prop :=
  if h.endOfStream then
    SkipsHeaderFilters p s (envoyHeadersToResponse K (extractHeaderList h))
  else s.request = none

theorem headersGuarded_of_error {st : Status} (hst : o.replies = .error st) :
    HeadersGuarded p resp o := by
  refine ⟨?_, fun _ => ⟨st, hst⟩⟩
  rintro ⟨replies, reply, headers, hok, -, -⟩
  rw [hst] at hok
  cases hok

/-- Headers that were filtered may pass. -/
theorem Filtered.headersGuarded (h : Filtered p resp o) : HeadersGuarded p resp o := by
  refine ⟨fun _ => h, ?_⟩
  intro hnone
  obtain ⟨ctx, hcalls, -⟩ := h
  rw [hnone] at hcalls
  cases hcalls

/-- A filter that was invoked and answered by an immediate response. -/
theorem headersGuarded_immediate {imm : ImmediateResponse} {log : List (Event K)}
    (hcalls : Outcome.headerFilters ⟨.ok [Reply.immediate imm], log⟩ ≠ []) :
    HeadersGuarded p resp ⟨.ok [Reply.immediate imm], log⟩ := by
  refine ⟨?_, fun hnone => (hcalls hnone).elim⟩
  rintro ⟨replies, reply, headers, hok, hmem, hresp⟩
  cases hok
  obtain rfl := List.mem_singleton.mp hmem
  cases hresp

/-- Without its filters a message is guarded by a status alone. -/
theorem headersGuarded_iff_of_silent (hcalls : o.headerFilters = []) :
    HeadersGuarded p resp o ↔ ∃ st, o.replies = .error st := by
  constructor
  · intro hguard
    exact hguard.refused hcalls
  · rintro ⟨st, hst⟩
    exact headersGuarded_of_error hst

theorem BodyRun.no_executeHttpResponse (h : BodyRun p side ctx s res events s') :
    (callsOf events).filter HookCall.isExecuteHttpResponse = [] := by
  rw [h.calls]
  split
  · rfl
  · cases side <;> rfl

theorem BodyRun.failsOnBody_iff (h : BodyRun p side ctx s res events s') :
    FailsOnBody p side ctx (s.body side) ↔ ∃ st, res = .error st := by
  cases h with
  | skipped hb => exact iff_of_false (fun hfails => hfails.1 hb) (by simp)
  | failed hb he => exact iff_of_true ⟨hb, _, he⟩ ⟨_, rfl⟩
  | rejected hb hr =>
    refine iff_of_false ?_ (by simp)
    rintro ⟨-, e, he⟩
    cases he.symm.trans hr
  | continued hb hc =>
    refine iff_of_false ?_ (by simp)
    rintro ⟨-, e, he⟩
    cases he.symm.trans hc

/-- Behind a skipped header hook nothing invokes `execute_http_response`. -/
theorem BodyRun.headerFilters_skipped (h : BodyRun p side ctx s res events s') :
    Outcome.headerFilters ⟨replies, [] ++ events⟩ = [] := h.no_executeHttpResponse

theorem BodyRun.headerFilters_ran {lent : HttpFilterContext K}
    (h : BodyRun p side ctx s res events s') :
    Outcome.headerFilters ⟨replies, [.hook (.executeHttpResponse lent)] ++ events⟩ =
      [.executeHttpResponse lent] := by
  rw [Outcome.headerFilters, calls_mk, callsOf_append, List.filter_append,
    h.no_executeHttpResponse]
  rfl

theorem skipsHeaderFilters_iff (hq : s.request = some request)
    (hx : s.responseFiltersExecuted = true) :
    SkipsHeaderFilters p s resp ↔
      ¬ FailsOnBody p .response (responseCtx s request resp) s.responseBody := by
  simp [SkipsHeaderFilters, hx, hq]

theorem not_skipsHeaderFilters (hx : s.responseFiltersExecuted = false) :
    ¬ SkipsHeaderFilters p s resp := by
  rintro ⟨hx', -⟩
  simp [hx] at hx'

/-- Behind skipped header filters the body hook decides. -/
theorem BodyRun.skipped_guarded_iff
    (hb : BodyRun p .response (responseCtx s request resp) s.takeResponse res events s')
    (hq : s.request = some request) (hx : s.responseFiltersExecuted = true)
    (hreplies : (∃ st, replies = .error st) ↔ ∃ st, res = .error st) :
    HeadersGuarded p resp ⟨replies, [] ++ events⟩ ↔ ¬ SkipsHeaderFilters p s resp := by
  have hfails : FailsOnBody p .response (responseCtx s request resp) s.responseBody ↔
      ∃ st, res = .error st := hb.failsOnBody_iff
  rw [skipsHeaderFilters_iff hq hx, not_not, hfails, ← hreplies]
  exact headersGuarded_iff_of_silent hb.headerFilters_skipped

/-- Headers that end the stream are guarded, unless their filters are skipped. -/
theorem ResponseRun.guarded_iff (h : ResponseRun p s o s') (hp : s.response = some resp) :
    HeadersGuarded p resp o ↔ ¬ SkipsHeaderFilters p s resp := by
  cases h with
  | noRequest hq =>
    refine iff_of_true (headersGuarded_of_error rfl) ?_
    rintro ⟨-, request, hq', -⟩
    simp [hq] at hq'
  | noResponse hq hp' => simp [hp] at hp'
  | failed hq hp' hx he =>
    exact iff_of_true (headersGuarded_of_error rfl) (not_skipsHeaderFilters hx)
  | rejected hq hp' hx hr =>
    refine iff_of_true (headersGuarded_immediate ?_) (not_skipsHeaderFilters hx)
    exact List.cons_ne_nil _ _
  | bodyFailed hq hp' hf hb =>
    obtain rfl := Option.some.inj (hp.symm.trans hp')
    cases hf with
    | ran hx hc => exact iff_of_true (headersGuarded_of_error rfl) (not_skipsHeaderFilters hx)
    | skipped hx => exact hb.skipped_guarded_iff hq hx (by simp)
  | bodyRejected hq hp' hf hb =>
    obtain rfl := Option.some.inj (hp.symm.trans hp')
    cases hf with
    | ran hx hc =>
      refine iff_of_true (headersGuarded_immediate ?_) (not_skipsHeaderFilters hx)
      rw [hb.headerFilters_ran]
      exact List.cons_ne_nil _ _
    | skipped hx => exact hb.skipped_guarded_iff hq hx (by simp)
  | done hq hp' hf hb =>
    obtain rfl := Option.some.inj (hp.symm.trans hp')
    cases hf with
    | ran hx hc =>
      refine iff_of_true (Filtered.headersGuarded ?_) (not_skipsHeaderFilters hx)
      exact ⟨_, hb.headerFilters_ran, rfl, hc⟩
    | skipped hx => exact hb.skipped_guarded_iff hq hx (by simp)

/-- Headers ahead of a body are guarded behind a request. -/
theorem HeaderRun.guarded_iff (h : HeaderRun p s o s') (hp : s.response = some resp) :
    HeadersGuarded p resp o ↔ s.request ≠ none := by
  cases h with
  | noRequest hq =>
    rw [headersGuarded_iff_of_silent rfl]
    simp [hq]
  | noResponse hq hp' => simp [hp] at hp'
  | failed hq hp' he | rejected hq hp' hr =>
    exact iff_of_true (headersGuarded_of_error rfl) (by simp [hq])
  | done hq hp' hc =>
    obtain rfl := Option.some.inj (hp.symm.trans hp')
    refine iff_of_true (Filtered.headersGuarded ?_) (by simp [hq])
    exact ⟨_, rfl, rfl, hc⟩

/-- Handling response headers, exactly when the guard holds. -/
theorem handle_headersGuarded_iff (h : HttpHeaders) :
    HeadersGuarded p (envoyHeadersToResponse K (extractHeaderList h))
        (handle p s (.responseHeaders h)).1 ↔ ¬ Unguarded p s h := by
  rcases h with ⟨headers, ended⟩
  cases ended with
  | true =>
    obtain ⟨o, s', hstep, hresp⟩ := endedResponse_run p s headers
    have houtcome : (handle p s (.responseHeaders ⟨headers, true⟩)).1 = o :=
      congrArg Prod.fst hstep
    rw [houtcome]
    exact hresp.guarded_iff rfl
  | false =>
    obtain ⟨o, s', hstep, hhead⟩ := openedResponse_run p s headers
    have houtcome : (handle p s (.responseHeaders ⟨headers, false⟩)).1 = o :=
      congrArg Prod.fst hstep
    rw [houtcome]
    exact hhead.guarded_iff rfl

/-- On a whole stream, all response headers were filtered where they passed and refused where they
could not be, exactly when no response headers message finds the stream unguarded. -/
theorem response_headers_guarded_iff (p : FilterPipeline K) (ms : List Message) :
    (∀ t ∈ (server p).run StreamState.new ms, ∀ h, t.message = .responseHeaders h →
        HeadersGuarded p (envoyHeadersToResponse K (extractHeaderList h)) t.reply) ↔
      ∀ t ∈ (server p).run StreamState.new ms, ∀ h, t.message = .responseHeaders h →
        ¬ Unguarded p t.before h := by
  refine forall₂_congr fun t ht => forall₂_congr fun h hm => ?_
  have hreply : t.reply = (handle p t.before t.message).1 :=
    congrArg Machine.Turn.reply (Machine.turn_of_mem_run ht)
  rw [hreply, hm]
  exact handle_headersGuarded_iff h

/-- Response headers on a fresh stream: they pass, and no hook is invoked. -/
theorem fresh_stream_unguarded :
    ∃ t ∈ (server passAll).run StreamState.new [.responseHeaders ⟨none, false⟩],
      t.reply.replies = .ok [Reply.responseHeaders none] ∧ t.reply.calls = [] ∧
        ¬ HeadersGuarded passAll (envoyHeadersToResponse httpCrates []) t.reply := by
  refine ⟨_, List.mem_singleton_self _, rfl, rfl, ?_⟩
  intro hguard
  obtain ⟨st, hst⟩ := hguard.refused rfl
  cases hst

end ExtProc
