import ExtProc.Frame
import ExtProc.Once

/-! The stream state, field by field, from the messages and hook calls so far alone. -/
namespace ExtProc

open Utf8 (Bytes)

variable {K : Crates} {p : FilterPipeline K} {s s' : StreamState K} {m : Message}
  {side side' : Side} {ctx ctx' ctx'' : HttpFilterContext K} {o : Outcome K} {c : HookCall K}
  {events first : List (Event K)} {replies : List ProcessingResponse}

/-- The bytes a message brings to a side. -/
def chunkOf (side : Side) (m : Message) : Bytes :=
  match side, m with
  | .request, .requestBody b => b.body
  | .response, .responseBody b => b.body
  | _, _ => []

/-- What a hook call leaves of the body of a side; no body is the empty body. -/
def HookCall.bodyLeft (p : FilterPipeline K) (side : Side) : HookCall K → Option Bytes
  | .executeHttpRequestBody ctx body eos =>
    if side = .request then some ((p.executeHttpRequestBody ctx body eos).body.getD []) else none
  | .executeHttpResponseBody ctx body eos =>
    if side = .response then some ((p.executeHttpResponseBody ctx body eos).body.getD []) else none
  | _ => none

def Outcome.bodyLeft (p : FilterPipeline K) (side : Side) (o : Outcome K) : Option Bytes :=
  o.calls.findSome? (HookCall.bodyLeft p side)

/-- The chunks of a side since its body hook last ran, behind what that hook left. -/
def bufferedBody (p : FilterPipeline K) (side : Side) (turns : List (Turn K)) : Bytes :=
  turns.foldl (fun held t =>
    (t.reply.bodyLeft p side).getD (held ++ chunkOf side t.message)) []

@[simp] theorem chunkOf_bodyMessage {b : HttpBody} :
    chunkOf side (bodyMessage side' b) = if side = side' then b.body else [] := by
  cases side <;> cases side' <;> rfl

@[simp] theorem chunkOf_trailersMessage {t : HttpTrailers} :
    chunkOf side (trailersMessage side' t) = [] := by
  cases side <;> cases side' <;> rfl

@[simp] theorem chunkOf_requestHeaders {h : HttpHeaders} :
    chunkOf side (.requestHeaders h) = [] := by
  cases side <;> rfl

@[simp] theorem chunkOf_responseHeaders {h : HttpHeaders} :
    chunkOf side (.responseHeaders h) = [] := by
  cases side <;> rfl

theorem bodyLeft_bodyHookCall :
    (bodyHookCall side' ctx s).bodyLeft p side =
      if side = side' then some ((bodyHook p side' ctx s).body.getD []) else none := by
  cases side <;> cases side' <;> rfl

theorem body_setBody {b : Bytes} :
    (s.setBody side' b).body side = if side = side' then b else s.body side := by
  cases side <;> cases side' <;> rfl

/-- A chunk that is kept joins the buffer of its side. -/
theorem body_setBody_chunk {b : HttpBody} :
    (s.setBody side' (s.body side' ++ b.body)).body side =
      s.body side ++ chunkOf side (bodyMessage side' b) := by
  rw [body_setBody, chunkOf_bodyMessage]
  by_cases hside : side = side'
  · subst hside
    simp
  · simp [hside]

@[simp] theorem keepFilterState_body : (s.keepFilterState ctx).body side = s.body side := by
  cases side <;> rfl
@[simp] theorem takeResponse_body : s.takeResponse.body side = s.body side := by
  cases side <;> rfl
@[simp] theorem setRequest_body {request : Request K} :
    (s.setRequest request).body side = s.body side := by
  cases side <;> rfl
@[simp] theorem setResponse_body {resp : Response K} :
    (s.setResponse resp).body side = s.body side := by
  cases side <;> rfl
@[simp] theorem setResponseFiltersExecuted_body :
    s.setResponseFiltersExecuted.body side = s.body side := by
  cases side <;> rfl

/-- Body filters that do not fail leave in the buffer what their hook left, if it ran. -/
theorem BodyRun.buffer {ran : HttpFilterContext K × Option ImmediateResponse}
    (h : BodyRun p side' ctx s (.ok ran) events s') :
    s'.body side = ((callsOf events).findSome? (HookCall.bodyLeft p side)).getD (s.body side) := by
  cases h with
  | skipped hb => rfl
  | rejected hb hr | continued hb hr =>
    rw [afterBodyHook, body_setBody, callsOf_hook, callsOf_nil, List.findSome?_singleton,
      bodyLeft_bodyHookCall]
    split <;> rfl

theorem RequestRun.buffer (h : RequestRun p s o s') (hok : o.replies = .ok replies) :
    s'.body side = (o.bodyLeft p side).getD (s.body side) := by
  cases h with
  | noRequest hq | failed hq he | bodyFailed hq hc hb => cases hok
  | rejected hq hr => rfl
  | bodyRejected hq hc hb => exact hb.buffer
  | done hq hc hb =>
    rw [keepFilterState_body]
    exact hb.buffer

theorem HeaderHook.leaves_body (h : HeaderHook p s ctx ctx' first) :
    (callsOf first).findSome? (HookCall.bodyLeft p side) = none := by
  cases h <;> rfl

theorem ResponseRun.buffer (h : ResponseRun p s o s') (hok : o.replies = .ok replies) :
    s'.body side = (o.bodyLeft p side).getD (s.body side) := by
  cases h with
  | noRequest hq | noResponse hq hp | failed hq hp hx he | bodyFailed hq hp hf hb => cases hok
  | rejected hq hp hx hr => exact takeResponse_body
  | bodyRejected hq hp hf hb | done hq hp hf hb =>
    rw [hb.buffer, takeResponse_body, Outcome.bodyLeft, calls_mk, callsOf_append,
      List.findSome?_append, hf.leaves_body, Option.none_or]

theorem HeaderRun.buffer (h : HeaderRun p s o s') :
    s'.body side = (o.bodyLeft p side).getD (s.body side) := by
  cases h with
  | noRequest hq | noResponse hq hp => rfl
  | failed hq hp he | rejected hq hp hr => exact setResponse_body
  | done hq hp hc => exact setResponseFiltersExecuted_body.trans setResponse_body

/-- A message that is answered adds its chunk to the buffer, unless the body hook emptied it. -/
theorem HandleRun.buffer (h : HandleRun p s m o s') (hok : o.replies = .ok replies) :
    s'.body side = (o.bodyLeft p side).getD (s.body side ++ chunkOf side m) := by
  cases h with
  | requestOpened he =>
    rw [setRequest_body, chunkOf_requestHeaders]
    exact (List.append_nil _).symm
  | requestEnded he hrun =>
    rw [hrun.buffer hok, setRequest_body, chunkOf_requestHeaders, List.append_nil]
  | responseOpened he hrun =>
    rw [hrun.buffer, setResponse_body, chunkOf_responseHeaders, List.append_nil]
  | responseEnded he hrun =>
    rw [hrun.buffer hok, setResponse_body, chunkOf_responseHeaders, List.append_nil]
  | chunkRefused side' hover => cases hok
  | chunkKept side' he => exact body_setBody_chunk
  | bodyEnded side' hcap he hrun =>
    rw [← body_setBody_chunk]
    cases hrun with
    | request hrun => exact hrun.buffer hok
    | response hrun => exact hrun.buffer hok
  | trailers side' t =>
    rw [chunkOf_trailersMessage]
    exact (List.append_nil _).symm

/-- Response headers ahead of a body, for which the header filters ran. -/
def filtersAtHeaders (m : Message) (o : Outcome K) : Bool :=
  match m with
  | .responseHeaders h => !h.endOfStream && !o.calls.isEmpty
  | _ => false

/-- The response a message leaves: as converted, or as the header filters left it; the end of a
response leaves none. -/
def heldAfter (p : FilterPipeline K) (held : Option (Response K)) (m : Message) (o : Outcome K) :
    Option (Response K) :=
  match m with
  | .responseHeaders h =>
    if h.endOfStream then none
    else match o.calls with
      | [.executeHttpResponse ctx] => some (p.executeHttpResponse ctx).lent
      | _ => some (envoyHeadersToResponse K (extractHeaderList h))
  | .responseBody b => if b.endOfStream then none else held
  | _ => held

theorem BodyRun.flag {res : Except Status (HttpFilterContext K × Option ImmediateResponse)}
    (h : BodyRun p side ctx s res events s') :
    s'.responseFiltersExecuted = s.responseFiltersExecuted := by
  obtain ⟨b, rfl⟩ := h.exists_setBody
  cases side <;> rfl

theorem ResponseRun.flag (h : ResponseRun p s o s') :
    s'.responseFiltersExecuted = s.responseFiltersExecuted := by
  cases h with
  | noRequest hq | noResponse hq hp | failed hq hp hx he | rejected hq hp hx hr => rfl
  | bodyFailed hq hp hf hb | bodyRejected hq hp hf hb | done hq hp hf hb => exact hb.flag

theorem HeaderRun.held {resp : Response K} (h : HeaderRun p (s.setResponse resp) o s')
    (hok : o.replies = .ok replies) :
    (s'.response = match o.calls with
        | [.executeHttpResponse ctx] => some (p.executeHttpResponse ctx).lent
        | _ => some resp) ∧
      s'.responseFiltersExecuted = (s.responseFiltersExecuted || !o.calls.isEmpty) := by
  cases h with
  | noRequest hq => exact ⟨rfl, (Bool.or_false _).symm⟩
  | noResponse hq hp => cases hp
  | failed hq hp he | rejected hq hp hr => cases hok
  | done hq hp hc => exact ⟨rfl, (Bool.or_true _).symm⟩

/-- What a message that is answered does to the response and to the flag. -/
theorem HandleRun.held (h : HandleRun p s m o s') (hok : o.replies = .ok replies) :
    s'.response = heldAfter p s.response m o ∧
      s'.responseFiltersExecuted = (s.responseFiltersExecuted || filtersAtHeaders m o) := by
  cases h with
  | requestOpened he => exact ⟨rfl, (Bool.or_false _).symm⟩
  | requestEnded he hrun =>
    have hsame := hrun.sameResponseSide
    exact ⟨hsame.response, hsame.responseFiltersExecuted.trans (Bool.or_false _).symm⟩
  | responseOpened he hrun =>
    obtain ⟨hresponse, hflag⟩ := hrun.held hok
    simp only [heldAfter, filtersAtHeaders, he, Bool.not_false, Bool.true_and]
    exact ⟨hresponse, hflag⟩
  | responseEnded he hrun =>
    simp only [heldAfter, filtersAtHeaders, he, Bool.not_true, Bool.false_and, Bool.or_false]
    exact ⟨hrun.taken hok, hrun.flag⟩
  | chunkRefused side hover => cases hok
  | chunkKept side he =>
    cases side with
    | request => exact ⟨rfl, (Bool.or_false _).symm⟩
    | response =>
      simp only [heldAfter, bodyMessage, he]
      exact ⟨rfl, (Bool.or_false _).symm⟩
  | bodyEnded side hcap he hrun =>
    cases hrun with
    | request hrun =>
      have hsame := hrun.sameResponseSide
      exact ⟨hsame.response, hsame.responseFiltersExecuted.trans (Bool.or_false _).symm⟩
    | response hrun =>
      simp only [heldAfter, bodyMessage, he]
      exact ⟨hrun.taken hok, hrun.flag.trans (Bool.or_false _).symm⟩
  | trailers side t => cases side <;> exact ⟨rfl, (Bool.or_false _).symm⟩

/-- The state the messages and hook calls so far amount to. -/
def replay (p : FilterPipeline K) (turns : List (Turn K)) : StreamState K where
  branchIterations := (keptFilterState p turns).branchIterations
  executedFilterIndices := (keptFilterState p turns).executedFilterIndices
  filterMetadata := (keptFilterState p turns).filterMetadata
  request := latestRequest turns
  requestBody := bufferedBody p .request turns
  response := turns.foldl (fun held t => heldAfter p held t.message t.reply) none
  responseBody := bufferedBody p .response turns
  responseFiltersExecuted := turns.any fun t => filtersAtHeaders t.message t.reply

theorem bufferedBody_concat {turns : List (Turn K)} {t : Turn K} :
    bufferedBody p side (turns ++ [t]) =
      (t.reply.bodyLeft p side).getD (bufferedBody p side turns ++ chunkOf side t.message) := by
  simp [bufferedBody]

theorem eq_replay {turns : List (Turn K)} (hkept : s.filterState = keptFilterState p turns)
    (hrequest : s.request = latestRequest turns)
    (hbuffer : ∀ side, s.body side = bufferedBody p side turns)
    (hresponse : s.response =
      turns.foldl (fun held t => heldAfter p held t.message t.reply) none)
    (hflag : s.responseFiltersExecuted =
      turns.any fun t => filtersAtHeaders t.message t.reply) : s = replay p turns := by
  have hbranch : s.branchIterations = (keptFilterState p turns).branchIterations :=
    congrArg FilterState.branchIterations hkept
  have hindices : s.executedFilterIndices = (keptFilterState p turns).executedFilterIndices :=
    congrArg FilterState.executedFilterIndices hkept
  have hmetadata : s.filterMetadata = (keptFilterState p turns).filterMetadata :=
    congrArg FilterState.filterMetadata hkept
  have hreq : s.requestBody = bufferedBody p .request turns := hbuffer .request
  have hresp : s.responseBody = bufferedBody p .response turns := hbuffer .response
  rw [replay, ← hbranch, ← hindices, ← hmetadata, ← hrequest, ← hreq, ← hresponse, ← hresp,
    ← hflag]

/-- A message that is answered leaves the state that replaying it leaves. -/
theorem HandleRun.replays {turns : List (Turn K)} {t : Turn K}
    (h : HandleRun p (replay p turns) t.message t.reply t.after)
    (hok : t.reply.replies = .ok replies) : t.after = replay p (turns ++ [t]) := by
  obtain ⟨hrequest, hstate⟩ := h.keeps
  obtain ⟨hresponse, hflag⟩ := h.held hok
  refine eq_replay ?_ ?_ ?_ ?_ ?_
  · rw [hstate, keptFilterState, List.foldl_append]
    rfl
  · rw [hrequest, latestRequest, List.foldl_append]
    rfl
  · intro side
    rw [bufferedBody_concat, h.buffer hok]
    cases side <;> rfl
  · rw [hresponse, List.foldl_append]
    rfl
  · rw [hflag, List.any_append, List.any_cons, List.any_nil, Bool.or_false]
    rfl

theorem run_replays {ms : List Message} {pre post : List (Turn K)} {t : Turn K}
    (hrun : (server p).run StreamState.new ms = pre ++ t :: post) :
    t.before = replay p pre ∧ t = (server p).turn t.before t.message := by
  refine Machine.run_history (P := fun pre u => u = replay p pre) rfl ?_ hrun
  rintro pre u m rfl hgoes
  obtain ⟨replies, hok⟩ := exists_replies_of_goes hgoes
  exact HandleRun.replays (handle_run p _ m) hok

/-- A body hook is given a body that is not empty, all at once. -/
def GivenBody (side : Side) (b : Bytes) (o : Outcome K) : Prop :=
  ∀ ctx body eos, HookCall.executeBody side ctx body eos ∈ o.calls →
    body = some b ∧ eos = true ∧ b ≠ []

theorem BodyRun.givenBody {res : Except Status (HttpFilterContext K × Option ImmediateResponse)}
    {body : Option Bytes} {eos : Bool} (h : BodyRun p side' ctx' s res events s')
    (hc : HookCall.executeBody side ctx body eos ∈ callsOf events) :
    body = some (s.body side) ∧ eos = true ∧ s.body side ≠ [] := by
  have hcall := h.mem_calls hc
  cases h with
  | skipped hb => cases hc
  | failed hb he | rejected hb he | continued hb he =>
    cases side <;> cases side' <;> cases hcall <;> exact ⟨rfl, rfl, hb⟩

theorem RequestRun.givenBody (h : RequestRun p s o s') : GivenBody side (s.body side) o := by
  intro ctx body eos hc
  cases h with
  | noRequest hq => cases hc
  | failed hq he | rejected hq he =>
    have hfirst := List.mem_singleton.mp hc
    cases side <;> cases hfirst
  | bodyFailed hq hcont hb | bodyRejected hq hcont hb | done hq hcont hb =>
    rcases List.mem_cons.mp hc with hfirst | hbody
    · cases side <;> cases hfirst
    · exact hb.givenBody hbody

theorem HeaderHook.no_body {body : Option Bytes} {eos : Bool}
    (h : HeaderHook p s ctx' ctx'' first) :
    HookCall.executeBody side ctx body eos ∉ callsOf first := by
  intro hc
  cases h with
  | ran hx hcont =>
    have hfirst := List.mem_singleton.mp hc
    cases side <;> cases hfirst
  | skipped hx => cases hc

theorem ResponseRun.givenBody (h : ResponseRun p s o s') : GivenBody side (s.body side) o := by
  intro ctx body eos hc
  cases h with
  | noRequest hq | noResponse hq hp => cases hc
  | failed hq hp hx he | rejected hq hp hx he =>
    have hfirst := List.mem_singleton.mp hc
    cases side <;> cases hfirst
  | bodyFailed hq hp hf hb | bodyRejected hq hp hf hb | done hq hp hf hb =>
    rw [calls_mk, callsOf_append, List.mem_append] at hc
    rcases hc with hfirst | hbody
    · exact (hf.no_body hfirst).elim
    · have hgiven := hb.givenBody hbody
      rwa [takeResponse_body] at hgiven

theorem HeaderRun.givenBody {b : Bytes} (h : HeaderRun p s o s') : GivenBody side b o := by
  intro ctx body eos hc
  obtain ⟨request, resp, -, -, hcall⟩ := h.mem_calls hc
  cases side <;> cases hcall

/-- A body hook gets what its side had buffered and what the message brings. -/
theorem HandleRun.givenBody (h : HandleRun p s m o s') :
    GivenBody side (s.body side ++ chunkOf side m) o := by
  cases h with
  | requestOpened he | chunkRefused side' hover | chunkKept side' he | trailers side' t =>
    intro ctx body eos hc
    cases hc
  | requestEnded he hrun =>
    rw [chunkOf_requestHeaders, List.append_nil, ← setRequest_body]
    exact hrun.givenBody
  | responseOpened he hrun => exact hrun.givenBody
  | responseEnded he hrun =>
    rw [chunkOf_responseHeaders, List.append_nil, ← setResponse_body]
    exact hrun.givenBody
  | bodyEnded side' hcap he hrun =>
    rw [← body_setBody_chunk]
    cases hrun with
    | request hrun => exact hrun.givenBody
    | response hrun => exact hrun.givenBody

/-- At every point of every stream the state is what the messages and hook calls so far amount to,
and each body hook is given the chunks of its side since it last ran, behind what it left then. -/
theorem state_replayed {ms : List Message} {pre post : List (Turn K)} {t : Turn K}
    (hrun : (server p).run StreamState.new ms = pre ++ t :: post) :
    t.before = replay p pre ∧
      ∀ side, GivenBody side (bufferedBody p side pre ++ chunkOf side t.message) t.reply := by
  obtain ⟨hbefore, ht⟩ := run_replays hrun
  refine ⟨hbefore, ?_⟩
  intro side
  have hgiven : GivenBody side (t.before.body side ++ chunkOf side t.message) t.reply :=
    (turn_run ht).givenBody
  rw [hbefore] at hgiven
  cases side <;> exact hgiven

section Replaying

/-- A request with two chunks, up to the last of them. -/
def chunkedTurns : List (Turn httpCrates) :=
  (server passAll).run .new [.requestHeaders ⟨none, false⟩, .requestBody ⟨[1], false⟩]

theorem chunked_replayed :
    bufferedBody passAll .request chunkedTurns = [1] ∧
      GivenBody .request [1, 2]
        ((server passAll).turn (replay passAll chunkedTurns) (.requestBody ⟨[2], true⟩)).reply := by
  have hrun : (server passAll).run .new [.requestHeaders ⟨none, false⟩,
      .requestBody ⟨[1], false⟩, .requestBody ⟨[2], true⟩] =
        chunkedTurns ++ (server passAll).turn (replay passAll chunkedTurns)
          (.requestBody ⟨[2], true⟩) :: [] := rfl
  exact ⟨rfl, (state_replayed hrun).2 .request⟩

end Replaying

end ExtProc
