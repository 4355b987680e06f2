import ExtProc.FilterState

/-! The hooks run one after the other on whole messages, and what ends an exchange early. -/
namespace ExtProc

open Utf8 (Bytes)

variable {K : Crates} {p : FilterPipeline K} {s s' : StreamState K} {o : Outcome K}
  {ctx ctx' : HttpFilterContext K} {request : Request K} {resp : Response K} {side : Side}
  {hs : List HeaderValue} {events first : List (Event K)}

/-- The body hook of a side on a whole body; there is no hook for no body. -/
def filterBody (p : FilterPipeline K) (side : Side) (ctx : HttpFilterContext K) (body : Bytes) :
    HttpFilterContext K × Bytes :=
  if body.isEmpty then (ctx, [])
  else ((p.executeBody side ctx (some body) true).ctx, leftBody p side ctx body)

/-- The request hooks, one after the other. -/
def filterRequest (p : FilterPipeline K) (hs : List HeaderValue) (body : Bytes) :
    HttpFilterContext K × Bytes :=
  filterBody p .request
    (p.executeHttpRequest (buildFilterContext (envoyHeadersToRequest K hs))).ctx body

/-- A context for the response phase: new but for the filter state of the request phase. -/
def responsePhaseCtx (left : HttpFilterContext K) (request : Request K) (resp : Response K) :
    HttpFilterContext K :=
  { buildFilterContext request with
    executedFilterIndices := left.executedFilterIndices
    branchIterations := left.branchIterations
    filterMetadata := left.filterMetadata
    responseHeader := some resp }

/-- The response as the header hook leaves it. -/
def filterHeaders (p : FilterPipeline K) (left : HttpFilterContext K) (request : Request K)
    (rs : List HeaderValue) : Response K :=
  (p.executeHttpResponse (responsePhaseCtx left request (envoyHeadersToResponse K rs))).lent

/-- The response hooks, one after the other. Each starts on a fresh context with the filter state of
the request phase: what the header hook leaves in its context is dropped, its response is not. -/
def filterResponse (p : FilterPipeline K) (left : HttpFilterContext K) (request : Request K)
    (rs : List HeaderValue) (body : Bytes) : HttpFilterContext K × Bytes :=
  filterBody p .response
    (responsePhaseCtx left request (filterHeaders p left request rs)) body

theorem filterBody_of_ne_nil {B : Bytes} (hB : B ≠ []) :
    filterBody p side ctx B =
      ((p.executeBody side ctx (some B) true).ctx, leftBody p side ctx B) := by
  rw [filterBody, if_neg]
  simpa using hB

/-- What ends an exchange early: Envoy is to answer by itself, or the stream ends by a status. -/
inductive Verdict where
  | immediate (imm : ImmediateResponse)
  | failed (st : Status)
  deriving DecidableEq

def resultVerdict : Except FilterError FilterAction → Option Verdict
  | .ok .«continue» => none
  | .ok (.reject r) => some (.immediate (rejectionToImmediate r))
  | .error e => some (.failed (Status.internal e))

/-- Response headers ahead of a body are rejected by a status. -/
def Verdict.aheadOfBody : Verdict → Verdict
  | .immediate imm => .failed (Status.aborted imm.body)
  | .failed st => .failed st

def bodyVerdict (p : FilterPipeline K) (side : Side) (ctx : HttpFilterContext K) (body : Bytes) :
    Option Verdict :=
  if body.isEmpty then none else resultVerdict (p.executeBody side ctx (some body) true).result

/-- The verdict of the request hooks: the first that does not continue decides. -/
def requestVerdict (p : FilterPipeline K) (hs : List HeaderValue) (body : Bytes) :
    Option Verdict :=
  let ran := p.executeHttpRequest (buildFilterContext (envoyHeadersToRequest K hs))
  (resultVerdict ran.result).or (bodyVerdict p .request ran.ctx body)

def headersVerdict (p : FilterPipeline K) (left : HttpFilterContext K) (request : Request K)
    (rs : List HeaderValue) : Option Verdict :=
  resultVerdict
    (p.executeHttpResponse (responsePhaseCtx left request (envoyHeadersToResponse K rs))).result

/-- The verdict of the response hooks. -/
def responseVerdict (p : FilterPipeline K) (left : HttpFilterContext K) (request : Request K)
    (rs : List HeaderValue) (body : Bytes) : Option Verdict :=
  if body.isEmpty then headersVerdict p left request rs
  else ((headersVerdict p left request rs).map Verdict.aheadOfBody).or
    (bodyVerdict p .response (responsePhaseCtx left request (filterHeaders p left request rs)) body)

/-- The verdict that a reply tells Envoy. -/
def ProcessingResponse.verdict (reply : ProcessingResponse) : Option Verdict :=
  match reply.response with
  | some (.immediateResponse imm) => some (.immediate imm)
  | _ => none

def Outcome.verdict (o : Outcome K) : Option Verdict :=
  match o.replies with
  | .ok replies => replies.findSome? ProcessingResponse.verdict
  | .error st => some (.failed st)

/-- The first verdict on a stream; Envoy goes on until then. -/
def settled (os : List (Outcome K)) : Option Verdict := os.findSome? Outcome.verdict

theorem resultVerdict_eq_none {result : Except FilterError FilterAction} :
    resultVerdict result = none ↔ result = .ok .«continue» := by
  constructor
  · intro h
    cases result with
    | error e => cases h
    | ok action =>
      cases action with
      | «continue» => rfl
      | reject r => cases h
  · rintro rfl
    rfl

theorem bodyVerdict_of_ne_nil (hb : s.body side ≠ []) :
    bodyVerdict p side ctx (s.body side) = resultVerdict (bodyHook p side ctx s).result := by
  rw [bodyVerdict, if_neg]
  · rfl
  · simpa using hb

theorem responseVerdict_of_ne_nil {left : HttpFilterContext K} {rs : List HeaderValue} {D : Bytes}
    (hD : D ≠ []) : responseVerdict p left request rs D =
      ((headersVerdict p left request rs).map Verdict.aheadOfBody).or (bodyVerdict p .response
        (responsePhaseCtx left request (filterHeaders p left request rs)) D) := by
  rw [responseVerdict, if_neg]
  simpa using hD

@[simp] theorem verdict_requestReplies {buf : Bytes} {log : List (Event K)} :
    Outcome.verdict ⟨.ok (requestReplies ctx buf), log⟩ = none := by
  cases buf <;> rfl
@[simp] theorem verdict_responseReplies {mutation : Option HeaderMutation} {buf : Bytes}
    {log : List (Event K)} :
    Outcome.verdict ⟨.ok (responseReplies mutation buf), log⟩ = none := by
  cases buf <;> rfl

theorem settled_append {os os' : List (Outcome K)} :
    settled (os ++ os') = (settled os).or (settled os') := List.findSome?_append

theorem settled_cons_of_none {os : List (Outcome K)} (h : o.verdict = none) :
    settled (o :: os) = settled os := List.findSome?_cons_of_isNone (by rw [h]; rfl)

theorem settled_singleton : settled [o] = o.verdict := by
  cases h : o.verdict <;> simp [settled, h]

theorem settled_silent {n : Nat} : settled (List.replicate n (silent : Outcome K)) = none := by
  induction n with
  | zero => rfl
  | succ n ih => exact ih

/-- Nothing that follows changes a verdict. -/
theorem settled_of_prefix {os os' : List (Outcome K)} {v : Verdict} (h : os <+: os')
    (hv : settled os = some v) : settled os' = some v := by
  obtain ⟨rest, rfl⟩ := h
  rw [settled_append, hv]
  rfl

def ranVerdict (res : Except Status (HttpFilterContext K × Option ImmediateResponse)) :
    Option Verdict :=
  match res with
  | .error st => some (.failed st)
  | .ok (_, reject) => reject.map Verdict.immediate

theorem BodyRun.verdict {res : Except Status (HttpFilterContext K × Option ImmediateResponse)}
    (h : BodyRun p side ctx s res events s') :
    bodyVerdict p side ctx (s.body side) = ranVerdict res := by
  cases h with
  | skipped hb =>
    rw [hb]
    rfl
  | failed hb he | rejected hb he | continued hb he =>
    rw [bodyVerdict_of_ne_nil hb, he]
    rfl

theorem BodyRun.passed (h : BodyRun p side ctx s (.ok (ctx', none)) events s') :
    filterBody p side ctx (s.body side) = (ctx', s'.body side) := by
  cases h with
  | skipped hb =>
    rw [hb]
    rfl
  | continued hb hc =>
    rw [filterBody_of_ne_nil hb, afterBodyHook_body]
    rfl

theorem RequestRun.verdict (h : RequestRun p s o s')
    (hq : s.request = some (envoyHeadersToRequest K hs)) :
    o.verdict = requestVerdict p hs s.requestBody := by
  cases h with
  | noRequest hq' => simp [hq] at hq'
  | failed hq' he | rejected hq' he =>
    obtain rfl := Option.some.inj (hq.symm.trans hq')
    rw [requestVerdict, he]
    rfl
  | bodyFailed hq' hc hb | bodyRejected hq' hc hb =>
    obtain rfl := Option.some.inj (hq.symm.trans hq')
    have hbody := hb.verdict
    rw [StreamState.body] at hbody
    simp only [requestVerdict, hc, hbody]
    rfl
  | done hq' hc hb =>
    obtain rfl := Option.some.inj (hq.symm.trans hq')
    have hbody := hb.verdict
    rw [StreamState.body] at hbody
    simp only [requestVerdict, hc, hbody, verdict_requestReplies]
    rfl

/-- The end of a request that gets no verdict. -/
theorem RequestRun.passed (h : RequestRun p s o s')
    (hq : s.request = some (envoyHeadersToRequest K hs)) (hnone : o.verdict = none) :
    o.replies = .ok (requestReplies (filterRequest p hs s.requestBody).1
        (filterRequest p hs s.requestBody).2) ∧
      s'.filterState = (filterRequest p hs s.requestBody).1.filterState := by
  cases h with
  | noRequest | failed | rejected | bodyFailed | bodyRejected => cases hnone
  | done hq' hc hb =>
    obtain rfl := Option.some.inj (hq.symm.trans hq')
    have hbody := hb.passed
    rw [StreamState.body, StreamState.body] at hbody
    rw [filterRequest, hbody]
    exact ⟨rfl, rfl⟩

/-- Response headers ahead of a body. -/
theorem HeaderRun.verdict (h : HeaderRun p s o s') (hq : s.request = some request)
    (hp : s.response = some resp) :
    o.verdict = (resultVerdict
      (p.executeHttpResponse (responseCtx s request resp)).result).map Verdict.aheadOfBody := by
  cases h with
  | noRequest hq' => simp [hq] at hq'
  | noResponse hq' hp' => simp [hp] at hp'
  | failed hq' hp' hr | rejected hq' hp' hr | done hq' hp' hr =>
    obtain rfl := Option.some.inj (hq.symm.trans hq')
    obtain rfl := Option.some.inj (hp.symm.trans hp')
    rw [hr]
    rfl

/-- The end of a response whose header hook is behind it. -/
theorem ResponseRun.verdict (h : ResponseRun p s o s') (hq : s.request = some request)
    (hp : s.response = some resp)
    (hf : HeaderHook p s (responseCtx s request resp) ctx first) :
    o.verdict = bodyVerdict p .response ctx s.responseBody ∧
      (o.verdict = none → o.replies = .ok (responseReplies
        (collectResponseHeaderMutationsDiff (filterBody p .response ctx s.responseBody).1
          (captureOriginalHeaders resp)) (filterBody p .response ctx s.responseBody).2)) := by
  cases h with
  | noRequest hq' => simp [hq] at hq'
  | noResponse hq' hp' => simp [hp] at hp'
  | failed hq' hp' hx hr | rejected hq' hp' hx hr =>
    obtain rfl := Option.some.inj (hq.symm.trans hq')
    obtain rfl := Option.some.inj (hp.symm.trans hp')
    cases hf with
    | ran hx' hc => simp [hr] at hc
    | skipped hx' => simp [hx] at hx'
  | bodyFailed hq' hp' hf' hb | bodyRejected hq' hp' hf' hb =>
    obtain rfl := Option.some.inj (hq.symm.trans hq')
    obtain rfl := Option.some.inj (hp.symm.trans hp')
    obtain ⟨rfl, -⟩ := hf.unique hf'
    have hbody := hb.verdict
    constructor
    · exact hbody.symm
    · intro hnone
      cases hnone
  | done hq' hp' hf' hb =>
    obtain rfl := Option.some.inj (hq.symm.trans hq')
    obtain rfl := Option.some.inj (hp.symm.trans hp')
    obtain ⟨rfl, -⟩ := hf.unique hf'
    have hbody := hb.verdict
    have hpassed := hb.passed
    constructor
    · exact verdict_responseReplies.trans hbody.symm
    · intro _
      have hfiltered : filterBody p .response ctx s.responseBody = _ := hpassed
      rw [hfiltered]
      rfl

/-- The end of a response without a body, the header hook still to come. -/
theorem ResponseRun.verdict_of_headers (h : ResponseRun p s o s')
    (hq : s.request = some request) (hp : s.response = some resp)
    (hx : s.responseFiltersExecuted = false) (hb : s.responseBody = []) :
    o.verdict = resultVerdict (p.executeHttpResponse (responseCtx s request resp)).result := by
  cases h with
  | noRequest hq' => simp [hq] at hq'
  | noResponse hq' hp' => simp [hp] at hp'
  | failed hq' hp' hx' hr | rejected hq' hp' hx' hr =>
    obtain rfl := Option.some.inj (hq.symm.trans hq')
    obtain rfl := Option.some.inj (hp.symm.trans hp')
    rw [hr]
    rfl
  | bodyFailed hq' hp' hf hrun | bodyRejected hq' hp' hf hrun =>
    obtain ⟨hres, -, -⟩ := hrun.skipped_of hb
    simp at hres
  | done hq' hp' hf hrun =>
    obtain rfl := Option.some.inj (hq.symm.trans hq')
    obtain rfl := Option.some.inj (hp.symm.trans hp')
    cases hf with
    | ran hx' hc =>
      rw [hc]
      exact verdict_responseReplies
    | skipped hx' => simp [hx] at hx'

end ExtProc
