import ExtProc.Http
import ExtProc.Outcomes

/-! Streams in the order Envoy sends them, and the kinds of the replies they get. -/
namespace ExtProc

open Utf8 (Bytes)

variable {K : Crates} {p : FilterPipeline K} {s s' : StreamState K} {m : Message} {side : Side}
  {ctx : HttpFilterContext K} {o : Outcome K} {ms : List Message}

/-- Where Envoy stands between two messages. -/
inductive EnvoyPhase where
  | start
  | requestBody
  | requestDone
  | responseBody
  | finished
  deriving DecidableEq, Repr

/-- Envoy's order: a phase has a body exactly when its headers do not end the stream. -/
def envoyNext : EnvoyPhase → Message → Option EnvoyPhase
  | .start, .requestHeaders h => some (if h.endOfStream then .requestDone else .requestBody)
  | .requestBody, .requestBody b => some (if b.endOfStream then .requestDone else .requestBody)
  | .requestDone, .responseHeaders h => some (if h.endOfStream then .finished else .responseBody)
  | .responseBody, .responseBody b => some (if b.endOfStream then .finished else .responseBody)
  | _, _ => none

/-- An immediate response answers every message, other replies the messages of their kind. -/
def ProcessingResponse.Answers (reply : ProcessingResponse) (m : Message) : Prop :=
  match reply.response, m with
  | some (.immediateResponse _), _ => True
  | some (.requestHeaders _), .requestHeaders _ => True
  | some (.requestBody _), .requestBody _ => True
  | some (.responseHeaders _), .responseHeaders _ => True
  | some (.responseBody _), .responseBody _ => True
  | some (.requestTrailers _), .requestTrailers _ => True
  | some (.responseTrailers _), .responseTrailers _ => True
  | _, _ => False

/-- The messages Envoy waits on: headers, and the last chunk of a body. -/
def Message.awaitsReply : Message → Bool
  | .requestHeaders _ | .responseHeaders _ => true
  | .requestBody b | .responseBody b => b.endOfStream
  | .requestTrailers _ | .responseTrailers _ => false

/-- A message handled without error gets replies of its kind, one where Envoy waits. -/
def Fits (m : Message) (o : Outcome K) : Prop :=
  ∀ replies, o.replies = .ok replies →
    (∀ reply ∈ replies, reply.Answers m) ∧ (m.awaitsReply = true → replies.length = 1)

/-- Every message of the stream is fitted by its replies. -/
def RepliesFit (p : FilterPipeline K) (ms : List Message) : Prop :=
  ∀ t ∈ (server p).run StreamState.new ms, Fits t.message t.reply

/-- The filters get no body, or a continuing body hook leaves none. -/
def LeavesNoBody (p : FilterPipeline K) (side : Side) (ctx : HttpFilterContext K) (b : Bytes) :
    Prop :=
  b = [] ∨ (p.executeBody side ctx (some b) true).result = .ok .«continue» ∧
    leftBody p side ctx b = []

/-- The hooks of a side, started on its whole body, continue and leave no body. -/
def EndsEmpty (p : FilterPipeline K) (s : StreamState K) : Side → Prop
  | .request => ∃ request, s.request = some request ∧
      (p.executeHttpRequest (buildFilterContext request)).result = .ok .«continue» ∧
      LeavesNoBody p .request (afterRequestHook p request) s.requestBody
  | .response => ∃ request resp ctx first, s.request = some request ∧ s.response = some resp ∧
      HeaderHook p s (responseCtx s request resp) ctx first ∧
      LeavesNoBody p .response ctx s.responseBody

/-- The last chunk of a body within the cap, behind which the filters leave no body. -/
def EmptiesBody (p : FilterPipeline K) (s : StreamState K) (side : Side) (b : HttpBody) : Prop :=
  b.endOfStream = true ∧ (s.body side).length + b.body.length ≤ maxBodyAccumulation ∧
    EndsEmpty p (s.setBody side (s.body side ++ b.body)) side

def Message.EmptiesBody (p : FilterPipeline K) (s : StreamState K) : Message → Prop
  | .requestBody b => ExtProc.EmptiesBody p s .request b
  | .responseBody b => ExtProc.EmptiesBody p s .response b
  | _ => False

theorem fits_of_error {st : Status} {log : List (Event K)} : Fits m ⟨.error st, log⟩ := by
  intro replies h
  cases h

theorem fits_of_immediate {imm : ImmediateResponse} {log : List (Event K)} :
    Fits m ⟨.ok [Reply.immediate imm], log⟩ := by
  intro replies h
  cases h
  simp [Reply.immediate, ProcessingResponse.Answers]

theorem fits_singleton {reply : ProcessingResponse} {log : List (Event K)} :
    Fits m ⟨.ok [reply], log⟩ ↔ reply.Answers m := by
  simp [Fits]

theorem fits_nil {log : List (Event K)} : Fits m ⟨.ok [], log⟩ ↔ m.awaitsReply = false := by
  simp [Fits]

/-- A body message is answered in kind exactly when a body is left to send. -/
theorem fits_requestReplies {b : HttpBody} {buf : Bytes} {log : List (Event K)} :
    Fits (.requestBody b) ⟨.ok (requestReplies ctx buf), log⟩ ↔ buf ≠ [] := by
  cases buf <;>
    simp [requestReplies, Reply.requestBody, Reply.requestHeaders, Reply.bodyResponses,
      Reply.wrapBodyResponse, fits_singleton, ProcessingResponse.Answers]

theorem fits_responseReplies {b : HttpBody} {buf : Bytes} {log : List (Event K)}
    {mutation : Option HeaderMutation} :
    Fits (.responseBody b) ⟨.ok (responseReplies mutation buf), log⟩ ↔ buf ≠ [] := by
  cases buf <;>
    simp [responseReplies, Reply.responseBody, Reply.responseHeaders, Reply.bodyResponses,
      Reply.wrapBodyResponse, fits_singleton, ProcessingResponse.Answers]

theorem BodyRun.not_leavesNoBody_of_error {st : Status} {events : List (Event K)}
    (h : BodyRun p side ctx s (.error st) events s') : ¬ LeavesNoBody p side ctx (s.body side) := by
  cases h with
  | failed hb he =>
    intro hends
    rcases hends with hempty | ⟨hc, -⟩
    · exact hb hempty
    · have hresult : (p.executeBody side ctx (some (s.body side)) true).result = _ := he
      simp [hresult] at hc

theorem BodyRun.not_leavesNoBody_of_reject {ctx' : HttpFilterContext K} {imm : ImmediateResponse}
    {events : List (Event K)} (h : BodyRun p side ctx s (.ok (ctx', some imm)) events s') :
    ¬ LeavesNoBody p side ctx (s.body side) := by
  cases h with
  | rejected hb hr =>
    intro hends
    rcases hends with hempty | ⟨hc, -⟩
    · exact hb hempty
    · have hresult : (p.executeBody side ctx (some (s.body side)) true).result = _ := hr
      simp [hresult] at hc

theorem BodyRun.leavesNoBody_iff {ctx' : HttpFilterContext K} {events : List (Event K)}
    (h : BodyRun p side ctx s (.ok (ctx', none)) events s') :
    LeavesNoBody p side ctx (s.body side) ↔ s'.body side = [] := by
  cases h with
  | skipped hb => exact iff_of_true (Or.inl hb) hb
  | continued hb hc =>
    rw [bodyHook] at hc
    simp [LeavesNoBody, hb, hc]

theorem endsEmpty_request_iff {request : Request K} (hq : s.request = some request) :
    EndsEmpty p s .request ↔
      (p.executeHttpRequest (buildFilterContext request)).result = .ok .«continue» ∧
        LeavesNoBody p .request (afterRequestHook p request) s.requestBody := by
  simp [EndsEmpty, hq]

theorem endsEmpty_response_iff {request : Request K} {resp : Response K}
    {first : List (Event K)} (hq : s.request = some request) (hp : s.response = some resp)
    (hf : HeaderHook p s (responseCtx s request resp) ctx first) :
    EndsEmpty p s .response ↔ LeavesNoBody p .response ctx s.responseBody := by
  constructor
  · rintro ⟨request', resp', ctx', first', hq', hp', hf', hempty⟩
    obtain rfl : request = request' := Option.some.inj (hq.symm.trans hq')
    obtain rfl : resp = resp' := Option.some.inj (hp.symm.trans hp')
    obtain ⟨rfl, -⟩ := hf.unique hf'
    exact hempty
  · intro hempty
    exact ⟨request, resp, ctx, first, hq, hp, hf, hempty⟩

/-- The header hook stops the response pipeline, so no empty body ends it. -/
theorem not_endsEmpty_response {request : Request K} {resp : Response K}
    (hq : s.request = some request) (hp : s.response = some resp)
    (hx : s.responseFiltersExecuted = false)
    (hc : (p.executeHttpResponse (responseCtx s request resp)).result ≠ .ok .«continue») :
    ¬ EndsEmpty p s .response := by
  rintro ⟨request', resp', ctx', first', hq', hp', hf', -⟩
  obtain rfl : request = request' := Option.some.inj (hq.symm.trans hq')
  obtain rfl : resp = resp' := Option.some.inj (hp.symm.trans hp')
  cases hf' with
  | ran _ hc' => exact hc hc'
  | skipped hx' => simp [hx] at hx'

theorem RequestRun.fits_iff {b : HttpBody} (h : RequestRun p s o s') :
    Fits (.requestBody b) o ↔ ¬ EndsEmpty p s .request := by
  cases h with
  | noRequest hq =>
    refine iff_of_true fits_of_error ?_
    rintro ⟨request, hq', -⟩
    simp [hq] at hq'
  | failed hq he =>
    refine iff_of_true fits_of_error ?_
    simp [endsEmpty_request_iff hq, he]
  | rejected hq hr =>
    refine iff_of_true fits_of_immediate ?_
    simp [endsEmpty_request_iff hq, hr]
  | bodyFailed hq hc hb =>
    refine iff_of_true fits_of_error ?_
    intro hends
    exact hb.not_leavesNoBody_of_error ((endsEmpty_request_iff hq).mp hends).2
  | bodyRejected hq hc hb =>
    refine iff_of_true fits_of_immediate ?_
    intro hends
    exact hb.not_leavesNoBody_of_reject ((endsEmpty_request_iff hq).mp hends).2
  | done hq hc hb =>
    rw [fits_requestReplies, endsEmpty_request_iff hq, not_iff_not]
    exact (hb.leavesNoBody_iff).symm.trans (and_iff_right hc).symm

theorem ResponseRun.fits_iff {b : HttpBody} (h : ResponseRun p s o s') :
    Fits (.responseBody b) o ↔ ¬ EndsEmpty p s .response := by
  cases h with
  | noRequest hq =>
    refine iff_of_true fits_of_error ?_
    rintro ⟨request, resp, ctx, first, hq', -⟩
    simp [hq] at hq'
  | noResponse hq hp =>
    refine iff_of_true fits_of_error ?_
    rintro ⟨request, resp, ctx, first, -, hp', -⟩
    simp [hp] at hp'
  | failed hq hp hx he =>
    exact iff_of_true fits_of_error (not_endsEmpty_response hq hp hx (by simp [he]))
  | rejected hq hp hx hr =>
    exact iff_of_true fits_of_immediate (not_endsEmpty_response hq hp hx (by simp [hr]))
  | bodyFailed hq hp hf hb =>
    refine iff_of_true fits_of_error ?_
    intro hends
    exact hb.not_leavesNoBody_of_error ((endsEmpty_response_iff hq hp hf).mp hends)
  | bodyRejected hq hp hf hb =>
    refine iff_of_true fits_of_immediate ?_
    intro hends
    exact hb.not_leavesNoBody_of_reject ((endsEmpty_response_iff hq hp hf).mp hends)
  | done hq hp hf hb =>
    rw [fits_responseReplies, endsEmpty_response_iff hq hp hf, not_iff_not]
    exact hb.leavesNoBody_iff.symm

/-- The end of response headers is answered in kind when no body was buffered. -/
theorem ResponseRun.fits_headers {h : HttpHeaders} (hrun : ResponseRun p s o s')
    (hempty : s.responseBody = []) : Fits (.responseHeaders h) o := by
  have hbuf : s.takeResponse.body .response = [] := hempty
  cases hrun with
  | noRequest hq => exact fits_of_error
  | noResponse hq hp => exact fits_of_error
  | failed hq hp hx he => exact fits_of_error
  | rejected hq hp hx hr => exact fits_of_immediate
  | bodyFailed hq hp hf hb => exact fits_of_error
  | bodyRejected hq hp hf hb => exact fits_of_immediate
  | done hq hp hf hb =>
    obtain ⟨-, -, rfl⟩ := hb.skipped_of hbuf
    have hleft : s.takeResponse.responseBody = [] := hempty
    simp [responseReplies, hleft, fits_singleton, Reply.responseHeaders,
      ProcessingResponse.Answers]

theorem RequestRun.fits_headers {h : HttpHeaders} (hrun : RequestRun p s o s')
    (hempty : s.requestBody = []) : Fits (.requestHeaders h) o := by
  have hbuf : s.body .request = [] := hempty
  cases hrun with
  | noRequest hq => exact fits_of_error
  | failed hq he => exact fits_of_error
  | rejected hq hr => exact fits_of_immediate
  | bodyFailed hq hc hb => exact fits_of_error
  | bodyRejected hq hc hb => exact fits_of_immediate
  | done hq hc hb =>
    obtain ⟨-, -, rfl⟩ := hb.skipped_of hbuf
    simp [requestReplies, hempty, fits_singleton, Reply.requestHeaders,
      ProcessingResponse.Answers]

theorem HeaderRun.fits {h : HttpHeaders} (hrun : HeaderRun p s o s') :
    Fits (.responseHeaders h) o := by
  cases hrun with
  | noRequest hq => simp [fits_singleton, Reply.responseHeaders, ProcessingResponse.Answers]
  | noResponse hq hp => simp [fits_singleton, Reply.responseHeaders, ProcessingResponse.Answers]
  | failed hq hp he => exact fits_of_error
  | rejected hq hp hr => exact fits_of_error
  | done hq hp hc => simp [fits_singleton, Reply.responseHeaders, ProcessingResponse.Answers]

theorem SideRun.fits_iff {b : HttpBody} (h : SideRun p s side o s') :
    Fits (bodyMessage side b) o ↔ ¬ EndsEmpty p s side := by
  cases h with
  | request h => exact h.fits_iff
  | response h => exact h.fits_iff

@[simp] theorem emptiesBody_bodyMessage {b : HttpBody} :
    (bodyMessage side b).EmptiesBody p s ↔ EmptiesBody p s side b := by
  cases side <;> rfl

@[simp] theorem awaitsReply_bodyMessage {b : HttpBody} :
    (bodyMessage side b).awaitsReply = b.endOfStream := by
  cases side <;> rfl

/-- No message of the response side has come yet. -/
structure ResponsePending (s : StreamState K) : Prop where
  response : s.response = none
  responseBody : s.responseBody = []
  responseFiltersExecuted : s.responseFiltersExecuted = false

/-- The request has been read, and the response is still to come. -/
structure RequestPhaseDone (s : StreamState K) : Prop extends ResponsePending s where
  request : ∃ request, s.request = some request

/-- The state of an orderly stream in each phase. -/
def Orderly : EnvoyPhase → StreamState K → Prop
  | .start, s => s.requestBody = [] ∧ ResponsePending s
  | .requestBody, s | .requestDone, s => RequestPhaseDone s
  | .responseBody, _ | .finished, _ => True

theorem orderly_new : Orderly .start (StreamState.new (K := K)) := ⟨rfl, rfl, rfl, rfl⟩

/-- The end of a request leaves the response side as it was. -/
theorem RequestRun.frame (h : RequestRun p s o s') : s'.request = s.request ∧
    s'.response = s.response ∧ s'.responseBody = s.responseBody ∧
    s'.responseFiltersExecuted = s.responseFiltersExecuted := by
  cases h with
  | noRequest hq => exact ⟨rfl, rfl, rfl, rfl⟩
  | failed hq he => exact ⟨rfl, rfl, rfl, rfl⟩
  | rejected hq hr => exact ⟨rfl, rfl, rfl, rfl⟩
  | bodyFailed hq hc hb | bodyRejected hq hc hb =>
    obtain ⟨b, rfl⟩ := hb.exists_setBody
    exact ⟨rfl, rfl, rfl, rfl⟩
  | done hq hc hb =>
    obtain ⟨b, rfl⟩ := hb.exists_setBody
    exact ⟨rfl, rfl, rfl, rfl⟩

theorem RequestRun.requestPhaseDone (h : RequestRun p s o s') (hs : RequestPhaseDone s) :
    RequestPhaseDone s' := by
  obtain ⟨hrequest, hresponse, hbody, hexecuted⟩ := h.frame
  obtain ⟨request, hq⟩ := hs.request
  exact
    { response := hresponse.trans hs.response
      responseBody := hbody.trans hs.responseBody
      responseFiltersExecuted := hexecuted.trans hs.responseFiltersExecuted
      request := ⟨request, hrequest.trans hq⟩ }

theorem ResponsePending.setRequest {request : Request K} (hs : ResponsePending s) :
    RequestPhaseDone (s.setRequest request) :=
  ⟨⟨hs.response, hs.responseBody, hs.responseFiltersExecuted⟩, request, rfl⟩

theorem RequestPhaseDone.setBody {b : Bytes} (hs : RequestPhaseDone s) :
    RequestPhaseDone (s.setBody .request b) :=
  ⟨⟨hs.response, hs.responseBody, hs.responseFiltersExecuted⟩, hs.request⟩

/-- Each message takes an orderly state to the next phase. -/
theorem HandleRun.orderly {q r : EnvoyPhase} (h : HandleRun p s m o s') (hi : Orderly q s)
    (hnext : envoyNext q m = some r) : Orderly r s' := by
  cases h with
  | requestOpened he =>
    cases q <;> simp [envoyNext, he] at hnext
    subst hnext
    exact hi.2.setRequest
  | requestEnded he hrun =>
    cases q <;> simp [envoyNext, he] at hnext
    subst hnext
    exact hrun.requestPhaseDone hi.2.setRequest
  | responseOpened he hrun | responseEnded he hrun =>
    cases q <;> simp [envoyNext, he] at hnext
    subst hnext
    trivial
  | chunkRefused side hover =>
    rename_i b
    cases side <;> cases q <;> cases he : b.endOfStream <;>
      simp [envoyNext, bodyMessage, he] at hnext <;> subst hnext
    · exact hi
    · exact hi
    · trivial
    · trivial
  | chunkKept side he =>
    cases side <;> cases q <;> simp [envoyNext, bodyMessage, he] at hnext <;> subst hnext
    · exact hi.setBody
    · trivial
  | bodyEnded side hcap he hrun =>
    cases hrun with
    | request hrun =>
      cases q <;> simp [envoyNext, bodyMessage, he] at hnext
      subst hnext
      exact hrun.requestPhaseDone hi.setBody
    | response hrun =>
      cases q <;> simp [envoyNext, bodyMessage, he] at hnext
      subst hnext
      trivial
  | trailers side t => cases side <;> cases q <;> simp [envoyNext, trailersMessage] at hnext

/-- In an orderly state the replies fit unless the message empties a body. -/
theorem HandleRun.fits_iff {q r : EnvoyPhase} (h : HandleRun p s m o s') (hi : Orderly q s)
    (hnext : envoyNext q m = some r) : Fits m o ↔ ¬ m.EmptiesBody p s := by
  cases h with
  | requestOpened he =>
    refine iff_of_true ?_ (by simp [Message.EmptiesBody])
    simp [fits_singleton, Reply.requestHeaders, ProcessingResponse.Answers]
  | requestEnded he hrun =>
    refine iff_of_true (hrun.fits_headers ?_) (by simp [Message.EmptiesBody])
    cases q with
    | start => exact hi.1
    | _ => simp [envoyNext] at hnext
  | responseOpened he hrun => exact iff_of_true hrun.fits (by simp [Message.EmptiesBody])
  | responseEnded he hrun =>
    refine iff_of_true (hrun.fits_headers ?_) (by simp [Message.EmptiesBody])
    cases q with
    | requestDone => exact hi.responseBody
    | _ => simp [envoyNext] at hnext
  | chunkRefused side hover =>
    refine iff_of_true fits_of_error ?_
    rw [emptiesBody_bodyMessage]
    rintro ⟨-, hcap, -⟩
    omega
  | chunkKept side he => simp [fits_nil, EmptiesBody, he]
  | bodyEnded side hcap he hrun =>
    rw [hrun.fits_iff, emptiesBody_bodyMessage]
    simp [EmptiesBody, he, hcap]
  | trailers side t => cases side <;> cases q <;> simp [envoyNext, trailersMessage] at hnext

theorem orderly_of_run {t : Turn K} (hms : Machine.Follows envoyNext .start ms)
    (ht : t ∈ (server p).run StreamState.new ms) :
    ∃ q r, Orderly q t.before ∧ envoyNext q t.message = some r := by
  refine Machine.run_follows orderly_new ?_ hms ht
  intro q u m r hi hnext _
  exact (handle_run p u m).orderly hi hnext

/-- In a stream in Envoy's order, the replies fit the messages they answer exactly when no final
chunk leaves an empty body. -/
theorem replies_fit_iff (hms : Machine.Follows envoyNext .start ms) :
    RepliesFit p ms ↔
      ∀ t ∈ (server p).run StreamState.new ms, ¬ t.message.EmptiesBody p t.before := by
  refine forall₂_congr fun t ht => ?_
  obtain ⟨q, r, hi, hnext⟩ := orderly_of_run hms ht
  exact (turn_run (Machine.turn_of_mem_run ht)).fits_iff hi hnext

section EmptyChunk

/-- A request whose whole body comes in one chunk. -/
def oneChunk (b : Bytes) : List Message :=
  [.requestHeaders ⟨none, false⟩, .requestBody ⟨b, true⟩]

theorem oneChunk_follows (b : Bytes) : Machine.Follows envoyNext .start (oneChunk b) :=
  ⟨_, rfl, _, rfl, trivial⟩

theorem nonempty_chunk_fits : RepliesFit passAll (oneChunk [1]) := by
  refine (replies_fit_iff (oneChunk_follows [1])).mpr ?_
  intro t ht
  have hrun : (server passAll).run StreamState.new (oneChunk [1]) =
      [(server passAll).turn .new (.requestHeaders ⟨none, false⟩),
        (server passAll).turn requested (.requestBody ⟨[1], true⟩)] := rfl
  rw [hrun, List.mem_pair] at ht
  rcases ht with rfl | rfl
  · exact id
  · rintro ⟨-, -, request, hq, hc, hempty | ⟨-, hempty⟩⟩ <;> cases hempty

/-- A request whose body turns out to be empty: its last chunk gets a headers reply. -/
theorem empty_chunk_misfits :
    Machine.Follows envoyNext .start (oneChunk []) ∧ ¬ RepliesFit passAll (oneChunk []) ∧
      ((server passAll).replies StreamState.new (oneChunk [])).map Outcome.replies =
        [.ok [Reply.requestHeaders none], .ok [Reply.requestHeaders none]] := by
  refine ⟨oneChunk_follows [], ?_, rfl⟩
  intro hfit
  have hlast := hfit ((server passAll).turn requested (.requestBody ⟨[], true⟩))
    (List.mem_cons_of_mem _ (List.mem_singleton_self _))
  exact (hlast [Reply.requestHeaders none] rfl).1 _ (List.mem_singleton_self _)

end EmptyChunk

end ExtProc
