import ExtProc.Coalesce
import ExtProc.Framing
import ExtProc.Replay
import ExtProc.Replies

/-! Chunks of one side between messages of the other: nothing but the whole bodies shows. -/
namespace ExtProc

open Exec (Commutes exec)
open Utf8 (Bytes)

variable {K : Crates} {p : FilterPipeline K} {s s' : StreamState K} {m : Message}
  {side side' : Side} {ctx : HttpFilterContext K} {b : Bytes} {o : Outcome K}
  {inbound inbound' : List Inbound}

/-- The state with more bytes buffered for a side. -/
def StreamState.grow (s : StreamState K) (side : Side) (b : Bytes) : StreamState K :=
  s.setBody side (s.body side ++ b)

def World.grow (side : Side) (b : Bytes) (w : World K) : World K :=
  { w with state := w.state.grow side b }

section Frames
variable {α : Type}

theorem commutes_emit {e : Event K} : Commutes (World.grow side b) (Handler.emit e) :=
  .write (fun _ => exec_handlerEmit e) fun _ => rfl

theorem commutes_modify {f : StreamState K → StreamState K}
    (h : ∀ s : StreamState K, f (s.grow side b) = (f s).grow side b) :
    Commutes (World.grow side b) (Handler.modify f) := by
  refine .write (fun _ => exec_handlerModify f) ?_
  intro w
  exact congrArg (fun s => ({ w with state := s } : World K)) (h w.state)

theorem commutes_get {k : StreamState K → Handler K α}
    (hread : ∀ s : StreamState K, k (s.grow side b) = k s)
    (hk : ∀ s, Commutes (World.grow side b) (k s)) :
    Commutes (World.grow side b) (Handler.get >>= k) :=
  .read_bind (g := World.state) (fun _ => rfl) (fun w => hread w.state) hk

theorem commutes_checkReject {action : FilterAction} :
    Commutes (World.grow side b) (checkReject (K := K) action) := by
  cases action with
  | reject rejection => exact commutes_emit.bind fun _ => .pure
  | «continue» => exact .pure

theorem commutes_bodyFilters (hside : side' ≠ side) :
    Commutes (World.grow side b) (bodyFilters side' p ctx) := by
  have hbody : ∀ s : StreamState K, (s.grow side b).body side' = s.body side' := by
    intro s
    cases side <;> cases side' <;> first | rfl | exact (hside rfl).elim
  have hset : ∀ c (s : StreamState K),
      (s.grow side b).setBody side' c = (s.setBody side' c).grow side b := by
    intro c s
    cases side <;> cases side' <;> first | rfl | exact (hside rfl).elim
  unfold bodyFilters
  refine commutes_get ?_ ?_
  · intro s
    rw [hbody]
  · intro s
    dsimp only
    split
    · exact .pure
    · refine (commutes_modify (hset [])).bind fun _ => commutes_emit.bind fun _ => ?_
      split
      · exact .throw
      · next action hran =>
        split
        · next body hbody =>
          refine (commutes_modify (hset body)).bind fun _ => ?_
          cases action with
          | reject rejection | «continue» => exact .pure
        · cases action with
          | reject rejection | «continue» => exact .pure

theorem commutes_executeRequest : Commutes (World.grow side b) (executeRequest p ctx) := by
  unfold executeRequest
  refine commutes_emit.bind fun _ => ?_
  dsimp only
  split
  · exact .throw
  · exact .pure

theorem commutes_executeResponse {keep : Response K → StreamState K → StreamState K}
    (hkeep : ∀ resp (s : StreamState K), keep resp (s.grow side b) = (keep resp s).grow side b) :
    Commutes (World.grow side b) (executeResponse p ctx keep) := by
  unfold executeResponse
  refine commutes_emit.bind fun _ => (commutes_modify (hkeep _)).bind fun _ => ?_
  split
  · exact .throw
  · exact .pure

/-- The request pipeline leaves the response body alone. -/
theorem commutes_runRequestPipeline :
    Commutes (World.grow .response b) (runRequestPipeline p) := by
  have hfilters : Commutes (World.grow .response b) (runRequestFilters p) := by
    unfold runRequestFilters
    refine commutes_get (fun _ => rfl) fun s => ?_
    split
    · next request hrequest =>
      refine commutes_executeRequest.bind fun ran => commutes_checkReject.bind fun reject => ?_
      split
      · exact .pure
      · refine (commutes_bodyFilters (by decide)).bind fun ran => ?_
        dsimp only
        split
        · exact .pure
        · refine commutes_get (fun _ => rfl) fun s => ?_
          exact (commutes_modify fun _ => rfl).bind fun _ => .pure
    · exact .throw
  unfold runRequestPipeline
  refine commutes_get (fun _ => rfl) fun s => ?_
  split
  · exact Commutes.throw.bind fun _ => hfilters
  · exact hfilters

theorem commutes_runResponseFilters {resp : Response K} :
    Commutes (World.grow .request b) (runResponseFilters p resp) := by
  unfold runResponseFilters
  refine commutes_get (fun _ => rfl) fun s => ?_
  split
  · next request hrequest =>
    refine commutes_get (fun _ => rfl) fun s => ?_
    -- `behind` is what both branches on the header filters go on with
    extract_lets ctx originalHeaders lent behind
    refine commutes_get (fun _ => rfl) fun s' => ?_
    have hbehind : ∀ ctx, Commutes (World.grow .request b) (behind () ctx) := by
      intro ctx
      refine (commutes_bodyFilters (by decide)).bind fun ran => ?_
      dsimp only
      split
      · exact .pure
      · refine commutes_get (fun _ => rfl) fun s => ?_
        split
        · exact .pure
        · exact .pure
    split
    · refine (commutes_executeResponse fun _ _ => rfl).bind fun ran =>
        commutes_checkReject.bind fun reject => ?_
      split
      · exact .pure
      · exact hbehind ran.1
    · exact hbehind lent
  · exact .throw

/-- The response pipeline leaves the request body alone. -/
theorem commutes_runResponsePipeline :
    Commutes (World.grow .request b) (runResponsePipeline p) := by
  unfold runResponsePipeline
  refine commutes_get (fun _ => rfl) fun s => ?_
  extract_lets behind
  have hbehind : Commutes (World.grow .request b) (behind ()) := by
    refine commutes_get (fun _ => rfl) fun s => ?_
    split
    · exact (commutes_modify fun _ => rfl).bind fun _ => commutes_runResponseFilters
    · exact .throw
  split
  · exact Commutes.throw.bind fun _ => hbehind
  · exact hbehind

/-- Response headers ahead of a body leave both bodies alone. -/
theorem commutes_runResponseHeaderFilters :
    Commutes (World.grow side b) (runResponseHeaderFilters p) := by
  unfold runResponseHeaderFilters
  cases side with
  | request | response =>
    refine commutes_get (fun _ => rfl) fun s => ?_
    split
    · refine commutes_get (fun _ => rfl) fun s => commutes_get (fun _ => rfl) fun s' => ?_
      split
      · refine (commutes_executeResponse fun _ _ => rfl).bind fun ran =>
          commutes_checkReject.bind fun reject => ?_
        dsimp only
        split
        · exact Commutes.throw.bind fun _ => (commutes_modify fun _ => rfl).bind fun _ => .pure
        · exact (commutes_modify fun _ => rfl).bind fun _ => .pure
      · exact .pure
    · exact .pure

theorem commutes_checkBodyLimit {current incoming : Nat} :
    Commutes (World.grow side b) (checkBodyLimit (K := K) current incoming) := by
  unfold checkBodyLimit
  split
  · exact .throw
  · exact .pure

end Frames

/-- The message neither brings bytes to a side nor closes it. -/
def PassesBy (side : Side) (m : Message) : Prop :=
  ¬ Closes side m ∧ ∀ body, m ≠ bodyMessage side body

theorem commutes_requestHeaders {headers : HttpHeaders}
    (h : side = .request → headers.endOfStream = false) :
    Commutes (World.grow side b) (handleRequestHeaders p headers) := by
  unfold handleRequestHeaders
  have hset : Commutes (World.grow side b) (Handler.modify (K := K)
      (·.setRequest (envoyHeadersToRequest K (extractHeaderList headers)))) := by
    cases side <;> exact commutes_modify fun _ => rfl
  refine hset.bind fun _ => ?_
  split
  · next he =>
    cases side with
    | request => simp [h rfl] at he
    | response => exact commutes_runRequestPipeline
  · exact .pure

theorem commutes_responseHeaders {headers : HttpHeaders}
    (h : side = .response → headers.endOfStream = false) :
    Commutes (World.grow side b) (handleResponseHeaders p headers) := by
  unfold handleResponseHeaders
  have hset : Commutes (World.grow side b) (Handler.modify (K := K)
      (·.setResponse (envoyHeadersToResponse K (extractHeaderList headers)))) := by
    cases side <;> exact commutes_modify fun _ => rfl
  refine hset.bind fun _ => ?_
  split
  · next he =>
    cases side with
    | request => exact commutes_runResponsePipeline
    | response => simp [h rfl] at he
  · exact commutes_runResponseHeaderFilters.bind fun _ => .pure

theorem commutes_requestBody {body : HttpBody} :
    Commutes (World.grow .response b) (handleRequestBody p body) := by
  unfold handleRequestBody
  refine commutes_get (fun _ => rfl) fun s => commutes_checkBodyLimit.bind fun _ =>
    (commutes_modify fun _ => rfl).bind fun _ => ?_
  split
  · exact .pure
  · exact commutes_runRequestPipeline

theorem commutes_responseBody {body : HttpBody} :
    Commutes (World.grow .request b) (handleResponseBody p body) := by
  unfold handleResponseBody
  refine commutes_get (fun _ => rfl) fun s => commutes_checkBodyLimit.bind fun _ =>
    (commutes_modify fun _ => rfl).bind fun _ => ?_
  split
  · exact .pure
  · exact commutes_runResponsePipeline

theorem commutes_dispatchRequest (h : PassesBy side m) :
    Commutes (World.grow side b) (dispatchRequest p m) := by
  obtain ⟨hclose, hbody⟩ := h
  cases m with
  | requestHeaders headers =>
    refine commutes_requestHeaders ?_
    rintro rfl
    exact Bool.eq_false_iff.mpr fun he => hclose (.headers .request he)
  | responseHeaders headers =>
    refine commutes_responseHeaders ?_
    rintro rfl
    exact Bool.eq_false_iff.mpr fun he => hclose (.headers .response he)
  | requestBody body =>
    cases side with
    | request => exact (hbody body rfl).elim
    | response => exact commutes_requestBody
  | responseBody body =>
    cases side with
    | request => exact commutes_responseBody
    | response => exact (hbody body rfl).elim
  | requestTrailers t | responseTrailers t => exact .pure

/-- A message that passes a side by does the same whatever is buffered for the side. -/
theorem handle_grow (h : PassesBy side m) : handle p (s.grow side b) m =
    ((handle p s m).1, (handle p s m).2.grow side b) := by
  have hrun := commutes_dispatchRequest (p := p) (b := b) h ⟨s, []⟩
  have hgrown : Exec.exec (dispatchRequest p m) ⟨s.grow side b, []⟩ = _ := hrun
  rw [handle, runHandler, hgrown]
  rfl

/-- A message that passes a side by leaves its body alone. -/
theorem HandleRun.keeps_body_of_passesBy (h : HandleRun p s m o s') (hpass : PassesBy side m) :
    s'.body side = s.body side := by
  obtain ⟨hclose, hbody⟩ := hpass
  cases h with
  | requestOpened he => exact setRequest_body
  | requestEnded he hrun =>
    cases side with
    | request => exact (hclose (.headers .request he)).elim
    | response => exact hrun.sameResponseSide.responseBody
  | responseOpened he hrun =>
    cases hrun with
    | noRequest hq | noResponse hq hp => exact setResponse_body
    | failed hq hp he | rejected hq hp hr => exact setResponse_body.trans setResponse_body
    | done hq hp hc =>
      exact setResponseFiltersExecuted_body.trans (setResponse_body.trans setResponse_body)
  | responseEnded he hrun =>
    cases side with
    | request => exact hrun.sameRequestSide.requestBody
    | response => exact (hclose (.headers .response he)).elim
  | chunkRefused side' hover | trailers side' t => rfl
  | chunkKept side' he =>
    rw [body_setBody, if_neg]
    rintro rfl
    exact hbody _ rfl
  | bodyEnded side' hcap he hrun =>
    cases hrun with
    | request hrun =>
      cases side with
      | request => exact (hbody _ rfl).elim
      | response => exact hrun.sameResponseSide.responseBody
    | response hrun =>
      cases side with
      | request => exact hrun.sameRequestSide.requestBody
      | response => exact (hbody _ rfl).elim

/-- The state with the bytes that were held back. -/
def StreamState.holding (s : StreamState K) (held : Side → Bytes) : StreamState K :=
  (s.grow .request (held .request)).grow .response (held .response)

theorem grow_nil : s.grow side [] = s := by
  rw [StreamState.grow, List.append_nil, setBody_self]

theorem holding_body {held : Side → Bytes} :
    (s.holding held).body side = s.body side ++ held side := by
  cases side <;> rfl

theorem holding_nil : s.holding (fun _ => []) = s := by
  rw [StreamState.holding, grow_nil, grow_nil]

/-- Bytes that are let go for one side are still held for the other. -/
theorem holding_grow {held : Side → Bytes} :
    (s.grow side (held side)).holding (Function.update held side []) = s.holding held := by
  cases side <;> simp [StreamState.holding, StreamState.grow, StreamState.setBody, StreamState.body]

/-- A chunk that joins the buffer behind the bytes held back may be held back with them. -/
theorem holding_setBody {held : Side → Bytes} {body : HttpBody} :
    (s.holding held).setBody side ((s.holding held).body side ++ body.body) =
      s.holding (fun side' => held side' ++ chunkOf side' (bodyMessage side body)) := by
  cases side <;> simp [StreamState.holding, StreamState.grow, StreamState.setBody, StreamState.body]

theorem handle_holding {held : Side → Bytes} (h : ∀ side, held side ≠ [] → PassesBy side m) :
    handle p (s.holding held) m = ((handle p s m).1, (handle p s m).2.holding held) := by
  have hgrow : ∀ (side : Side) (s : StreamState K), handle p (s.grow side (held side)) m =
      ((handle p s m).1, (handle p s m).2.grow side (held side)) := by
    intro side s
    by_cases hnil : held side = []
    · rw [hnil, grow_nil, grow_nil]
    · exact handle_grow (h side hnil)
  rw [StreamState.holding, hgrow .response, hgrow .request]
  rfl

/-- The side a message closes. -/
def Message.closing : Message → Option Side
  | .requestHeaders h => if h.endOfStream then some .request else none
  | .requestBody b => if b.endOfStream then some .request else none
  | .responseHeaders h => if h.endOfStream then some .response else none
  | .responseBody b => if b.endOfStream then some .response else none
  | .requestTrailers _ | .responseTrailers _ => none

/-- The bytes held back for a side, as one chunk. -/
def released (side : Side) (b : Bytes) : List Message :=
  if b = [] then [] else [bodyMessage side ⟨b, false⟩]

/-- Chunks that leave their body open are held back until a message closes it. -/
def gatherFrom (held : Side → Bytes) : List Message → List Message
  | [] => []
  | m :: ms =>
    if m.isOpenChunk then gatherFrom (fun side => held side ++ chunkOf side m) ms
    else
      match m.closing with
      | none => m :: gatherFrom held ms
      | some side =>
        released side (held side) ++ m :: gatherFrom (Function.update held side []) ms

/-- The messages of a stream with each body that is closed in one piece, where it is closed. -/
def gather (ms : List Message) : List Message := coalesce (gatherFrom (fun _ => []) ms)

theorem exists_openChunk (h : m.isOpenChunk = true) :
    ∃ side c, m = bodyMessage side ⟨c, false⟩ := by
  cases m with
  | requestBody body =>
    have he : body.endOfStream = false := by simpa [Message.isOpenChunk] using h
    exact ⟨.request, body.body, by rw [bodyMessage, ← he]⟩
  | responseBody body =>
    have he : body.endOfStream = false := by simpa [Message.isOpenChunk] using h
    exact ⟨.response, body.body, by rw [bodyMessage, ← he]⟩
  | requestHeaders h' | responseHeaders h' | requestTrailers t | responseTrailers t => cases h

theorem closing_of_closes (h : Closes side m) : m.closing = some side := by
  cases h with
  | headers _ he => cases side <;> simp [Message.closing, headersMessage, he]
  | body _ he => cases side <;> simp [Message.closing, bodyMessage, he]

/-- A message that is no open chunk passes by every side but the one it closes. -/
theorem passesBy_of_closing_ne (hopen : m.isOpenChunk = false) (hside : m.closing ≠ some side) :
    PassesBy side m := by
  refine ⟨fun hclose => hside (closing_of_closes hclose), ?_⟩
  rintro body rfl
  have he : body.endOfStream = true := by
    cases side <;> simpa [Message.isOpenChunk, bodyMessage] using hopen
  exact hside (closing_of_closes (.body side he))

/-- No chunk is refused. -/
def NoneRefused (os : List (Outcome K)) : Prop := ∀ o ∈ os, o.replies ≠ .error bodyTooLarge

/-- The bytes held back for a side fit behind what it has buffered. -/
def Fit (s : StreamState K) (held : Side → Bytes) : Prop :=
  ∀ side, held side ≠ [] → (s.body side ++ held side).length ≤ maxBodyAccumulation

theorem shows_released {ms : List Message}
    (hfit : b ≠ [] → (s.body side ++ b).length ≤ maxBodyAccumulation) :
    ((server p).replies s (released side b ++ ms)).filter Outcome.shows =
      ((server p).replies (s.grow side b) ms).filter Outcome.shows := by
  by_cases hnil : b = []
  · rw [hnil, grow_nil]
    rfl
  · have hcap : (s.body side).length + b.length ≤ maxBodyAccumulation := by
      rw [← List.length_append]
      exact hfit hnil
    have hstep : handle p s (bodyMessage side ⟨b, false⟩) = (silent, s.grow side b) :=
      handle_openChunk hcap
    rw [released, if_neg hnil, List.singleton_append, replies_of_answered hstep rfl]
    rfl

/-- A message that passes by every side with bytes held back is handled in either state alike, and
so is what comes behind it. -/
theorem shows_passing {ms xs : List Message} {held : Side → Bytes} (hfit : Fit s held)
    (hpass : ∀ side, held side ≠ [] → PassesBy side m)
    (hnone : NoneRefused ((server p).replies (s.holding held) (m :: ms)))
    (hrest : ∀ s' : StreamState K, Fit s' held →
      NoneRefused ((server p).replies (s'.holding held) ms) →
      ((server p).replies (s'.holding held) ms).filter Outcome.shows =
        ((server p).replies s' xs).filter Outcome.shows) :
    ((server p).replies (s.holding held) (m :: ms)).filter Outcome.shows =
      ((server p).replies s (m :: xs)).filter Outcome.shows := by
  have hholding := handle_holding (p := p) (s := s) hpass
  have hplain : handle p s m = ((handle p s m).1, (handle p s m).2) := rfl
  cases ho : (handle p s m).1.replies with
  | error st => rw [replies_of_refused hholding ho, replies_of_refused hplain ho]
  | ok replies =>
    have hfit' : Fit (handle p s m).2 held := by
      intro side hheld
      rw [(handle_run p s m).keeps_body_of_passesBy (hpass side hheld)]
      exact hfit side hheld
    rw [replies_of_answered hholding ho] at hnone ⊢
    have htail := hrest _ hfit' fun o ho => hnone o (List.mem_cons_of_mem _ ho)
    rw [replies_of_answered hplain ho, List.filter_cons, List.filter_cons, htail]

/-- A state with bytes held back does on the messages what the state without them does on the
gathered ones. -/
theorem gather_shows {ms : List Message} {held : Side → Bytes} (hfit : Fit s held)
    (hnone : NoneRefused ((server p).replies (s.holding held) ms)) :
    ((server p).replies (s.holding held) ms).filter Outcome.shows =
      ((server p).replies s (gatherFrom held ms)).filter Outcome.shows := by
  induction ms generalizing s held with
  | nil => rfl
  | cons m ms ih =>
    rw [gatherFrom]
    cases hopen : m.isOpenChunk with
    | true =>
      obtain ⟨side, c, rfl⟩ := exists_openChunk hopen
      by_cases hcap : ((s.holding held).body side).length + c.length ≤ maxBodyAccumulation
      · have hstep := handle_openChunk (p := p) hcap
        have hjoined := @holding_setBody _ s side held ⟨c, false⟩
        rw [hjoined] at hstep
        rw [replies_of_answered hstep rfl] at hnone ⊢
        refine ih ?_ fun o ho => hnone o (List.mem_cons_of_mem _ ho)
        intro side' hheld
        simp only [chunkOf_bodyMessage] at hheld ⊢
        by_cases hside : side' = side
        · subst hside
          rw [holding_body, ← List.length_append, List.append_assoc] at hcap
          rwa [if_pos rfl]
        · rw [if_neg hside, List.append_nil] at hheld ⊢
          exact hfit side' hheld
      · have hstep := handle_chunkRefused (p := p) (c := ⟨c, false⟩) (Nat.lt_of_not_le hcap)
        rw [replies_of_refused hstep rfl] at hnone
        exact (hnone _ List.mem_cons_self rfl).elim
    | false =>
      cases hclosing : m.closing with
      | none =>
        refine shows_passing hfit ?_ hnone fun s' hfit' hnone' => ih hfit' hnone'
        intro side _
        exact passesBy_of_closing_ne hopen (by simp [hclosing])
      | some side =>
        dsimp only
        have hgrown : _ = s.holding held := @holding_grow _ s side held
        rw [if_neg (by simp), shows_released (hfit side), ← hgrown]
        rw [← hgrown] at hnone
        have hother : ∀ {side'}, Function.update held side [] side' ≠ [] → side' ≠ side := by
          rintro side' hheld rfl
          exact hheld (Function.update_self ..)
        refine shows_passing ?_ ?_ hnone fun s' hfit' hnone' => ih hfit' hnone'
        · intro side' hheld
          have hside := hother hheld
          rw [Function.update_of_ne hside] at hheld ⊢
          rw [StreamState.grow, body_setBody, if_neg hside]
          exact hfit side' hheld
        · intro side' hheld
          refine passesBy_of_closing_ne hopen ?_
          rw [hclosing]
          exact fun heq => hother hheld (Option.some.inj heq).symm

/-- Two streams whose bodies are the same in one piece and closed at the same place do the same
things in the same order, as long as no chunk is refused: in which chunks a body comes, and what
comes of the other side between them, does not show. -/
theorem interleaving_unobservable (p : FilterPipeline K) (room : Option Nat)
    (hgathered : gather (messagesOf inbound) = gather (messagesOf inbound'))
    (hnone : NoneRefused (outcomes p .new inbound))
    (hnone' : NoneRefused (outcomes p .new inbound'))
    (hend : transportFailure inbound = transportFailure inbound') :
    (exec (process p inbound) (.start room)).2.log =
      (exec (process p inbound') (.start room)).2.log := by
  have hgather : ∀ {ms : List Message}, NoneRefused ((server p).replies .new ms) →
      ((server p).replies .new ms).filter Outcome.shows =
        ((server p).replies .new (gatherFrom (fun _ => []) ms)).filter Outcome.shows := by
    intro ms hnone
    have hfit : Fit (StreamState.new : StreamState K) fun _ => [] := fun _ h => (h rfl).elim
    have hshows := gather_shows hfit (by rwa [holding_nil])
    rwa [holding_nil] at hshows
  have hagree : (outcomes p .new inbound).filter Outcome.shows =
      (outcomes p .new inbound').filter Outcome.shows := by
    refine (hgather hnone).trans (Eq.trans ?_ (hgather hnone').symm)
    exact (coalesced_agree (p := p) hgathered).replies .new
  refine process_alike ?_ ?_ (.start room)
  · rw [← trace_filter_shows, ← trace_filter_shows (outcomes p .new inbound')]
    exact congrArg trace hagree
  · rw [failure, failure, hend, ← findSome_filter_shows,
      ← findSome_filter_shows (outcomes p .new inbound')]
    exact congrArg (fun os : List (Outcome K) =>
      (os.findSome? Outcome.status?).or (transportFailure inbound')) hagree

section Weaving

/-- A request and a response body that overlap. -/
def overlapping : List Inbound :=
  [.ok ⟨some (.requestHeaders ⟨none, false⟩)⟩, .ok ⟨some (.requestBody ⟨[1], false⟩)⟩,
    .ok ⟨some (.responseHeaders ⟨none, false⟩)⟩, .ok ⟨some (.requestBody ⟨[2], false⟩)⟩,
    .ok ⟨some (.responseBody ⟨[3], false⟩)⟩, .ok ⟨some (.requestBody ⟨[4], true⟩)⟩,
    .ok ⟨some (.responseBody ⟨[5], true⟩)⟩]

/-- The same bodies, each in one piece. -/
def onePiece : List Inbound :=
  [.ok ⟨some (.requestHeaders ⟨none, false⟩)⟩, .ok ⟨some (.responseHeaders ⟨none, false⟩)⟩,
    .ok ⟨some (.requestBody ⟨[1, 2, 4], true⟩)⟩, .ok ⟨some (.responseBody ⟨[3, 5], true⟩)⟩]

theorem noneRefused_of_isOk {os : List (Outcome K)} (h : os.all (·.replies.isOk) = true) :
    NoneRefused os := by
  intro o ho hrefused
  have hok := List.all_eq_true.mp h o ho
  rw [hrefused] at hok
  cases hok

theorem overlap_unseen :
    (exec (process passAll overlapping) (.start none)).2.log =
      (exec (process passAll onePiece) (.start none)).2.log := by
  refine interleaving_unobservable passAll none rfl ?_ ?_ rfl
  · exact noneRefused_of_isOk (by decide)
  · exact noneRefused_of_isOk (by decide)

end Weaving

end ExtProc
