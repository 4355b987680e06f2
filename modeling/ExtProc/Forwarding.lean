import ExtProc.Http
import ExtProc.Outcomes

/-! The body Envoy forwards, against the body the filters left. -/
namespace ExtProc

open Utf8 (Bytes)

variable {K : Crates} {p : FilterPipeline K} {s s' : StreamState K} {m : Message} {side : Side}
  {ctx : HttpFilterContext K} {o : Outcome K} {replies : List ProcessingResponse} {b : Bytes}

def ProcessingResponse.common? (reply : ProcessingResponse) : Option CommonResponse :=
  match reply.response with
  | some (.requestHeaders h) => h.response
  | some (.responseHeaders h) => h.response
  | some (.requestBody b) => b.response
  | some (.responseBody b) => b.response
  | _ => none

def ProcessingResponse.bodyMutation? (reply : ProcessingResponse) : Option BodyMutation.Mutation :=
  (reply.common?.bind CommonResponse.bodyMutation).bind BodyMutation.mutation

/-- What Envoy makes of a body when it gets the reply. -/
def forwardedBody (b : Bytes) (reply : ProcessingResponse) : Bytes :=
  match reply.bodyMutation? with
  | some (.body bytes) => bytes
  | some (.clearBody clear) => if clear then [] else b
  | none => b

/-- The body a side has accumulated when the message ends it. -/
def accumulated (side : Side) (s : StreamState K) (m : Message) : Option Bytes :=
  match side, m with
  | .request, .requestHeaders h => if h.endOfStream then some s.requestBody else none
  | .request, .requestBody b => if b.endOfStream then some (s.requestBody ++ b.body) else none
  | .response, .responseHeaders h => if h.endOfStream then some s.responseBody else none
  | .response, .responseBody b => if b.endOfStream then some (s.responseBody ++ b.body) else none
  | _, _ => none

/-- The reply to the end of a side says what the hook left, unless it left nothing. -/
def ForwardsLeftBody (p : FilterPipeline K) (side : Side) (b : Bytes) (o : Outcome K) : Prop :=
  ∃ ctx reply, o.calls.getLast? = some (.executeBody side ctx (some b) true) ∧
    o.replies = .ok [reply] ∧
    (forwardedBody b reply = leftBody p side ctx b ↔ leftBody p side ctx b ≠ [])

theorem forwardedBody_requestReplies (ctx : HttpFilterContext K) (b buf : Bytes) (hb : b ≠ []) :
    ∃ reply, requestReplies ctx buf = [reply] ∧ (forwardedBody b reply = buf ↔ buf ≠ []) := by
  cases buf with
  | nil =>
    refine ⟨Reply.requestHeaders (collectRequestHeaderMutations ctx), rfl, ?_⟩
    exact iff_of_false hb (by simp)
  | cons x xs =>
    refine ⟨_, rfl, ?_⟩
    exact iff_of_true rfl (by simp)

theorem forwardedBody_responseReplies (mutation : Option HeaderMutation) (b buf : Bytes)
    (hb : b ≠ []) :
    ∃ reply, responseReplies mutation buf = [reply] ∧
      (forwardedBody b reply = buf ↔ buf ≠ []) := by
  cases buf with
  | nil =>
    refine ⟨Reply.responseHeaders mutation, rfl, ?_⟩
    exact iff_of_false hb (by simp)
  | cons x xs =>
    refine ⟨_, rfl, ?_⟩
    exact iff_of_true rfl (by simp)

/-- The last hook of the request side gets the whole body, and the reply what it left. -/
theorem RequestRun.forwards (h : RequestRun p s o s') (hc : p.Continues)
    (hb : s.requestBody ≠ []) (hok : o.replies = .ok replies) :
    ForwardsLeftBody p .request s.requestBody o := by
  cases hq : s.request with
  | none =>
    cases h with
    | noRequest _ => cases hok
    | failed hq' _ | rejected hq' _ | bodyFailed hq' _ _ | bodyRejected hq' _ _ | done hq' _ _ =>
      simp [hq] at hq'
  | some request =>
    obtain ⟨rfl, -⟩ := h.continued_of hc hq hb
    obtain ⟨reply, hreply, hiff⟩ := forwardedBody_requestReplies
      (bodyHook p .request (afterRequestHook p request) s).ctx s.requestBody
      (leftBody p .request (afterRequestHook p request) s.requestBody) hb
    exact ⟨afterRequestHook p request, reply, rfl, by rw [hreply], hiff⟩

theorem ResponseRun.forwards (h : ResponseRun p s o s') (hc : p.Continues)
    (hb : s.responseBody ≠ []) (hok : o.replies = .ok replies) :
    ForwardsLeftBody p .response s.responseBody o := by
  cases hq : s.request with
  | none =>
    cases h with
    | noRequest _ => cases hok
    | noResponse hq' _ | failed hq' _ _ _ | rejected hq' _ _ _ | bodyFailed hq' _ _ _
    | bodyRejected hq' _ _ _ | done hq' _ _ _ => simp [hq] at hq'
  | some request =>
    cases hp : s.response with
    | none =>
      cases h with
      | noRequest _ => cases hok
      | noResponse _ _ => cases hok
      | failed _ hp' _ _ | rejected _ hp' _ _ | bodyFailed _ hp' _ _ | bodyRejected _ hp' _ _
      | done _ hp' _ _ => simp [hp] at hp'
    | some resp =>
      obtain ⟨ctx, first, hf⟩ := exists_headerHook (s := s) hc (responseCtx s request resp)
      obtain ⟨rfl, -⟩ := h.continued_of hc hq hp hf hb
      obtain ⟨reply, hreply, hiff⟩ := forwardedBody_responseReplies
        (collectResponseHeaderMutationsDiff (bodyHook p .response ctx s.takeResponse).ctx
          (captureOriginalHeaders resp)) s.responseBody
        (leftBody p .response ctx s.responseBody) hb
      refine ⟨ctx, reply, ?_, by rw [hreply], hiff⟩
      simp [bodyHookCall, StreamState.body, StreamState.takeResponse]

theorem SideRun.forwards (h : SideRun p s side o s') (hc : p.Continues) (hb : s.body side ≠ [])
    (hok : o.replies = .ok replies) : ForwardsLeftBody p side (s.body side) o := by
  cases h with
  | request h => exact h.forwards hc hb hok
  | response h => exact h.forwards hc hb hok

@[simp] theorem accumulated_bodyMessage {side side' : Side} {body : HttpBody} :
    accumulated side s (bodyMessage side' body) =
      if side = side' ∧ body.endOfStream then some (s.body side ++ body.body) else none := by
  cases side <;> cases side' <;> simp [accumulated, bodyMessage, StreamState.body]

theorem HandleRun.forwards (h : HandleRun p s m o s') (hc : p.Continues)
    (hend : accumulated side s m = some b) (hb : b ≠ []) (hok : o.replies = .ok replies) :
    ForwardsLeftBody p side b o := by
  cases h with
  | requestOpened he | responseOpened he hrun => cases side <;> simp [accumulated, he] at hend
  | requestEnded he hrun =>
    cases side with
    | response => simp [accumulated] at hend
    | request =>
      simp only [accumulated, he, if_true, Option.some.injEq] at hend
      subst hend
      exact hrun.forwards hc hb hok
  | responseEnded he hrun =>
    cases side with
    | request => simp [accumulated] at hend
    | response =>
      simp only [accumulated, he, if_true, Option.some.injEq] at hend
      subst hend
      exact hrun.forwards hc hb hok
  | chunkRefused side' hover => cases hok
  | chunkKept side' he => simp [he] at hend
  | bodyEnded side' hcap he hrun =>
    simp only [accumulated_bodyMessage, he, and_true] at hend
    split at hend
    · next hside =>
      subst hside
      cases hend
      simpa using hrun.forwards hc (by simpa using hb) hok
    · cases hend
  | trailers side' t => cases side <;> cases side' <;> simp [accumulated, trailersMessage] at hend

/-- When a message ends a side with a body, the hook gets that body, and what Envoy forwards
is what the hook left exactly when the hook left something. -/
theorem forwarded_body_iff (hc : p.Continues) (hend : accumulated side s m = some b) (hb : b ≠ [])
    (hok : (handle p s m).1.replies = .ok replies) :
    ∃ ctx reply,
      (handle p s m).1.calls.getLast? = some (.executeBody side ctx (some b) true) ∧
      (handle p s m).1.replies = .ok [reply] ∧
      (forwardedBody b reply = leftBody p side ctx b ↔ leftBody p side ctx b ≠ []) :=
  (handle_run p s m).forwards hc hend hb hok

section Dropping

/-- A pipeline whose request body hook drops the body. -/
def dropBody : FilterPipeline httpCrates :=
  { passAll with executeHttpRequestBody := fun ctx _ _ => ⟨ctx, none, .ok .«continue»⟩ }

theorem dropBody_continues : dropBody.Continues := by
  intro c
  cases c <;> rfl

theorem kept_body_forwarded :
    ∃ reply, (handle passAll requested (.requestBody ⟨[1, 2], true⟩)).1.replies = .ok [reply] ∧
      forwardedBody [1, 2] reply = [1, 2] := by
  have hok : (handle passAll requested (.requestBody ⟨[1, 2], true⟩)).1.replies =
      .ok (Reply.requestBody (some [1, 2]) none) := rfl
  have hend : accumulated .request requested (.requestBody ⟨[1, 2], true⟩) = some [1, 2] := rfl
  obtain ⟨ctx, reply, -, hreply, hiff⟩ :=
    forwarded_body_iff passAll_continues hend (List.cons_ne_nil 1 [2]) hok
  exact ⟨reply, hreply, hiff.mpr (List.cons_ne_nil 1 [2])⟩

/-- The hook drops the body, all hooks continue, and Envoy forwards the body it had. -/
theorem dropped_body_forwarded :
    dropBody.Continues ∧ ∃ ctx reply,
      (handle dropBody requested (.requestBody ⟨[1], true⟩)).1.calls.getLast? =
        some (.executeBody .request ctx (some [1]) true) ∧
      (handle dropBody requested (.requestBody ⟨[1], true⟩)).1.replies = .ok [reply] ∧
      leftBody dropBody .request ctx [1] = [] ∧ forwardedBody [1] reply = [1] :=
  ⟨dropBody_continues, buildFilterContext plainRequest, Reply.requestHeaders none,
    rfl, rfl, rfl, rfl⟩

end Dropping

end ExtProc
