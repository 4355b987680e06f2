import ExtProc.HookOrder
import ExtProc.ReadOnly

/-! Streams whose two sides come each in order, in any interleaving: what is filtered, and what
fails. -/
namespace ExtProc

open Utf8 (Bytes)
open List (Sublist)

variable {K : Crates} {p : FilterPipeline K} {s s' : StreamState K} {m : Message}
  {side side' : Side} {ctx ctx' : HttpFilterContext K} {o : Outcome K} {st : Status}
  {events first : List (Event K)} {replies : List ProcessingResponse} {ms : List Message}
  {pre post : List (Turn K)} {t : Turn K}

/-- How far one side of a stream has come. -/
inductive SidePhase where
  | before
  | body
  | ended
  deriving DecidableEq, Repr

def SidePhase.behind (endOfStream : Bool) : SidePhase := if endOfStream then .ended else .body

def Message.sideOf : Message → Side
  | .requestHeaders _ | .requestBody _ | .requestTrailers _ => .request
  | .responseHeaders _ | .responseBody _ | .responseTrailers _ => .response

/-- Headers open a side, and the last chunk or trailers end it. -/
def SidePhase.next : SidePhase → Message → Option SidePhase
  | .before, .requestHeaders h | .before, .responseHeaders h => some (.behind h.endOfStream)
  | .body, .requestBody b | .body, .responseBody b => some (.behind b.endOfStream)
  | .body, .requestTrailers _ | .body, .responseTrailers _ => some .ended
  | _, _ => none

abbrev Duplex := Side → SidePhase

def Duplex.start : Duplex := fun _ => .before

/-- Each side in its order, the response not ahead of the request headers; a response may begin,
and end, before the request does. -/
def duplexNext (q : Duplex) (m : Message) : Option Duplex :=
  if m.sideOf = .response ∧ q .request = .before then none
  else ((q m.sideOf).next m).map (Function.update q m.sideOf)

theorem duplexNext_eq_some {q r : Duplex} : duplexNext q m = some r ↔
    (m.sideOf = .response → q .request ≠ .before) ∧
      ∃ x, (q m.sideOf).next m = some x ∧ Function.update q m.sideOf x = r := by
  simp only [duplexNext, Option.ite_none_left_eq_some, Option.map_eq_some_iff, not_and, ne_eq]

@[simp] theorem sideOf_headersMessage {h : HttpHeaders} :
    (headersMessage side h).sideOf = side := by
  cases side <;> rfl
@[simp] theorem sideOf_bodyMessage {b : HttpBody} : (bodyMessage side b).sideOf = side := by
  cases side <;> rfl
@[simp] theorem sideOf_trailersMessage {tr : HttpTrailers} :
    (trailersMessage side tr).sideOf = side := by
  cases side <;> rfl

section Phases
variable {x y : SidePhase}

theorem next_requestHeaders {h : HttpHeaders} : x.next (.requestHeaders h) = some y ↔
    x = .before ∧ SidePhase.behind h.endOfStream = y := by
  cases x <;> simp [SidePhase.next]

theorem next_responseHeaders {h : HttpHeaders} : x.next (.responseHeaders h) = some y ↔
    x = .before ∧ SidePhase.behind h.endOfStream = y := by
  cases x <;> simp [SidePhase.next]

theorem next_bodyMessage {b : HttpBody} : x.next (bodyMessage side b) = some y ↔
    x = .body ∧ SidePhase.behind b.endOfStream = y := by
  cases side <;> cases x <;> simp [SidePhase.next, bodyMessage]

theorem next_trailersMessage {tr : HttpTrailers} : x.next (trailersMessage side tr) = some y ↔
    x = .body ∧ .ended = y := by
  cases side <;> cases x <;> simp [SidePhase.next, trailersMessage]

@[simp] theorem behind_true : SidePhase.behind true = .ended := rfl

theorem next_ne_before (h : x.next m = some y) : y ≠ .before := by
  have hbehind : ∀ eos, SidePhase.behind eos ≠ .before := by
    intro eos
    cases eos <;> intro heq <;> cases heq
  cases m <;> cases x <;> simp only [SidePhase.next, Option.some.injEq, reduceCtorEq] at h <;>
    subst h
  all_goals first | exact hbehind _ | (intro heq; cases heq)

theorem ne_ended_of_next (h : x.next m = some y) : x ≠ .ended := by
  rintro rfl
  cases m <;> cases h

end Phases

inductive HookStage where
  | headers
  | body
  deriving DecidableEq, Repr

/-- Which hook of a side a call is. -/
def HookCall.stageOn (side : Side) : HookCall K → Option HookStage
  | .executeHttpRequest _ => if side = .request then some .headers else none
  | .executeHttpRequestBody _ _ _ => if side = .request then some .body else none
  | .executeHttpResponse _ => if side = .response then some .headers else none
  | .executeHttpResponseBody _ _ _ => if side = .response then some .body else none

/-- The hooks of a side that were invoked, in order. -/
def stagesOn (side : Side) (calls : List (HookCall K)) : List HookStage :=
  calls.filterMap (HookCall.stageOn side)

/-- The hooks a side with this body is due. -/
def wholeStages (b : Bytes) : List HookStage := .headers :: if b = [] then [] else [.body]

/-- The hooks a side went through when its body begins: response headers are filtered ahead of a
body, request headers with it. -/
def stagesAheadOfBody : Side → List HookStage
  | .request => []
  | .response => [.headers]

/-- Answered, and not by a rejection. -/
def Passes (o : Outcome K) : Prop :=
  ∃ replies, o.replies = .ok replies ∧ ∀ imm, Reply.immediate imm ∉ replies

theorem not_passes_immediate {imm : ImmediateResponse} {log : List (Event K)} :
    ¬ Passes (K := K) ⟨.ok [Reply.immediate imm], log⟩ := by
  rintro ⟨replies, hok, hnone⟩
  cases hok
  exact hnone imm (List.mem_singleton.mpr rfl)

theorem not_passes_error {log : List (Event K)} : ¬ Passes (K := K) ⟨.error st, log⟩ := by
  rintro ⟨replies, hok, -⟩
  cases hok

@[simp] theorem stagesOn_nil : stagesOn side ([] : List (HookCall K)) = [] := rfl

@[simp] theorem stagesOn_append {calls calls' : List (HookCall K)} :
    stagesOn side (calls ++ calls') = stagesOn side calls ++ stagesOn side calls' :=
  List.filterMap_append

@[simp] theorem stageOn_bodyHookCall : (bodyHookCall side' ctx s).stageOn side =
    if side = side' then some .body else none := by
  cases side' <;> rfl

theorem BodyRun.stages {res : Except Status (HttpFilterContext K × Option ImmediateResponse)}
    (h : BodyRun p side' ctx s res events s') :
    stagesOn side (callsOf events) =
      if side = side' then (if s.body side' = [] then [] else [.body]) else [] := by
  rw [h.calls]
  by_cases hb : s.body side' = []
  · simp [hb]
  · by_cases hside : side = side' <;> simp [hb, hside, stagesOn]

/-- The hooks a side has behind it while it is not over: the header hook, if it ran ahead of the
body. -/
def StreamState.ahead (s : StreamState K) : Side → List HookStage
  | .request => []
  | .response => if s.responseFiltersExecuted then [.headers] else []

/-- The hooks of a side came in order, and all it is due if it passes. -/
structure Stages (b : Bytes) (o : Outcome K) (stages : List HookStage) : Prop where
  inOrder : Sublist stages [.headers, .body]
  whole : Passes o → stages = wholeStages b

theorem Stages.of_eq {b : Bytes} {stages : List HookStage} (h : stages = wholeStages b) :
    Stages b o stages := by
  refine ⟨?_, fun _ => h⟩
  rw [h, wholeStages]
  split
  · exact .cons_cons _ (List.nil_sublist _)
  · exact .refl _

theorem Stages.cut {b : Bytes} (h : ¬ Passes o) : Stages b o [.headers] :=
  ⟨.cons_cons _ (List.nil_sublist _), fun hpasses => (h hpasses).elim⟩

theorem Stages.append_nil {b : Bytes} {stages : List HookStage} (h : Stages b o stages) :
    Stages (b ++ []) o stages := by
  rw [List.append_nil]
  exact h

/-- A body hook counts for its own side alone. -/
theorem BodyRun.stages_other {res : Except Status (HttpFilterContext K × Option ImmediateResponse)}
    (h : BodyRun p side' ctx s res events s') (hside : side ≠ side') :
    stagesOn side (callsOf events) = [] := by
  rw [h.stages, if_neg hside]

theorem BodyRun.wholeStages {res : Except Status (HttpFilterContext K × Option ImmediateResponse)}
    (h : BodyRun p side ctx s res events s') :
    .headers :: stagesOn side (callsOf events) = wholeStages (s.body side) := by
  rw [h.stages, if_pos rfl]
  rfl

theorem RequestRun.stages (h : RequestRun p s o s') (hrequest : s.request.isSome = true) :
    Stages s.requestBody o (stagesOn .request o.calls) ∧ stagesOn .response o.calls = [] := by
  cases h with
  | noRequest hq =>
    rw [hq] at hrequest
    cases hrequest
  | failed hq he => exact ⟨.cut not_passes_error, rfl⟩
  | rejected hq hr => exact ⟨.cut not_passes_immediate, rfl⟩
  | bodyFailed hq hc hb | bodyRejected hq hc hb | done hq hc hb =>
    exact ⟨.of_eq hb.wholeStages, hb.stages_other (by decide)⟩

theorem HeaderHook.stages (h : HeaderHook p s ctx ctx' first) :
    s.ahead .response ++ stagesOn .response (callsOf first) = [.headers] ∧
      stagesOn .request (callsOf first) = [] := by
  cases h with
  | ran hx hc => simp [StreamState.ahead, stagesOn, HookCall.stageOn, hx]
  | skipped hx => simp [StreamState.ahead, hx]

theorem ResponseRun.stages (h : ResponseRun p s o s') (hrequest : s.request.isSome = true)
    (hresponse : s.response.isSome = true) :
    Stages s.responseBody o (s.ahead .response ++ stagesOn .response o.calls) ∧
      stagesOn .request o.calls = [] := by
  cases h with
  | noRequest hq =>
    rw [hq] at hrequest
    cases hrequest
  | noResponse hq hp =>
    rw [hp] at hresponse
    cases hresponse
  | failed hq hp hx he =>
    have hahead : s.ahead .response = [] := by simp [StreamState.ahead, hx]
    rw [hahead]
    exact ⟨.cut not_passes_error, rfl⟩
  | rejected hq hp hx hr =>
    have hahead : s.ahead .response = [] := by simp [StreamState.ahead, hx]
    rw [hahead]
    exact ⟨.cut not_passes_immediate, rfl⟩
  | bodyFailed hq hp hf hb | bodyRejected hq hp hf hb | done hq hp hf hb =>
    obtain ⟨hfirst, hnone⟩ := hf.stages
    rw [calls_mk, callsOf_append, stagesOn_append, stagesOn_append, ← List.append_assoc, hfirst,
      hnone]
    exact ⟨.of_eq hb.wholeStages, hb.stages_other (by decide)⟩

/-- Response headers ahead of a body that pass went through their hook. -/
theorem HeaderRun.stages (h : HeaderRun p s o s') (hrequest : s.request.isSome = true)
    (hresponse : s.response.isSome = true) :
    stagesOn .response o.calls = [.headers] ∧ stagesOn .request o.calls = [] ∧
      ∀ replies, o.replies = .ok replies → s'.responseFiltersExecuted = true := by
  cases h with
  | noRequest hq =>
    rw [hq] at hrequest
    cases hrequest
  | noResponse hq hp =>
    rw [hp] at hresponse
    cases hresponse
  | failed hq hp he => exact ⟨rfl, rfl, fun _ hok => by cases hok⟩
  | rejected hq hp hr => exact ⟨rfl, rfl, fun _ hok => by cases hok⟩
  | done hq hp hc => exact ⟨rfl, rfl, fun _ _ => rfl⟩

/-- What the state holds of a stream that has come this far. -/
structure OnTrack (q : Duplex) (s : StreamState K) : Prop where
  requestFirst : q .response ≠ .before → q .request ≠ .before
  request : q .request ≠ .before → s.request.isSome = true
  response : q .response = .body → s.response.isSome = true
  filtered : q .response = .body → s.responseFiltersExecuted = true
  unfiltered : q .response = .before → s.responseFiltersExecuted = false

theorem OnTrack.new : OnTrack Duplex.start (StreamState.new : StreamState K) := by
  refine ⟨fun h => (h rfl).elim, fun h => (h rfl).elim, ?_, ?_, fun _ => rfl⟩
  · intro h
    cases h
  · intro h
    cases h

section Steps
variable {q r : Duplex}

/-- What one message adds to the hooks of the two sides. -/
structure Adds (r : Duplex) (s : StreamState K) (m : Message) (o : Outcome K)
    (s' : StreamState K) : Prop where
  other : ∀ side, side ≠ m.sideOf → stagesOn side o.calls = []
  inOrder : Sublist (s.ahead m.sideOf ++ stagesOn m.sideOf o.calls) [.headers, .body]
  whole : Closes m.sideOf m → Passes o → s.ahead m.sideOf ++ stagesOn m.sideOf o.calls =
    wholeStages (s.body m.sideOf ++ chunkOf m.sideOf m)
  isOpen : r m.sideOf ≠ .ended → ∀ replies, o.replies = .ok replies →
    s.ahead m.sideOf ++ stagesOn m.sideOf o.calls = s'.ahead m.sideOf

theorem ahead_sublist : Sublist (s.ahead side) [.headers, .body] := by
  cases side with
  | request => exact List.nil_sublist _
  | response =>
    rw [StreamState.ahead]
    split
    · exact .cons_cons _ (List.nil_sublist _)
    · exact List.nil_sublist _

@[simp] theorem ahead_setBody {b : Bytes} : (s.setBody side' b).ahead side = s.ahead side := by
  cases side <;> cases side' <;> rfl

/-- A message without a hook adds nothing. -/
theorem Adds.of_silent (hcalls : o.calls = []) (hwhole : Closes m.sideOf m → ¬ Passes o)
    (hsame : ∀ replies, o.replies = .ok replies → s'.ahead m.sideOf = s.ahead m.sideOf) :
    Adds r s m o s' := by
  refine ⟨?_, ?_, ?_, ?_⟩
  · intro side hside
    rw [hcalls, stagesOn_nil]
  · rw [hcalls, stagesOn_nil, List.append_nil]
    exact ahead_sublist
  · intro hclose hpasses
    exact (hwhole hclose hpasses).elim
  · intro hopen replies hok
    rw [hcalls, stagesOn_nil, List.append_nil, hsame replies hok]

theorem of_ne_request {P : Side → Prop} (h : P .response) : ∀ side, side ≠ .request → P side := by
  intro side hside
  cases side with
  | request => exact (hside rfl).elim
  | response => exact h

theorem of_ne_response {P : Side → Prop} (h : P .request) : ∀ side, side ≠ .response → P side := by
  intro side hside
  cases side with
  | request => exact h
  | response => exact (hside rfl).elim

/-- A message that ends its side adds what is left of the hooks of that side. -/
theorem Adds.of_ended
    (hstages : Stages (s.body m.sideOf ++ chunkOf m.sideOf m) o
      (s.ahead m.sideOf ++ stagesOn m.sideOf o.calls))
    (hother : ∀ side, side ≠ m.sideOf → stagesOn side o.calls = [])
    (hended : r m.sideOf = .ended) : Adds r s m o s' :=
  ⟨hother, hstages.inOrder, fun _ hpasses => hstages.whole hpasses,
    fun hopen => (hopen hended).elim⟩

theorem HandleRun.adds (h : HandleRun p s m o s') (hq : OnTrack q s)
    (hnext : duplexNext q m = some r) : Adds r s m o s' := by
  obtain ⟨hfirst, x, hx, rfl⟩ := duplexNext_eq_some.mp hnext
  cases h with
  | requestOpened he =>
    refine .of_silent rfl ?_ fun _ _ => rfl
    intro hclose
    simp [closes_requestHeaders.mp ⟨_, hclose⟩] at he
  | @requestEnded h o s' he hrun =>
    obtain ⟨hstages, hnone⟩ := hrun.stages rfl
    obtain ⟨-, rfl⟩ := next_requestHeaders.mp hx
    refine .of_ended hstages.append_nil (of_ne_request hnone) ?_
    simp [Message.sideOf, he]
  | @responseOpened h o s' he hrun =>
    obtain ⟨hbefore, rfl⟩ := next_responseHeaders.mp hx
    have hrequest : s.request.isSome = true := hq.request (hfirst rfl)
    obtain ⟨hstages, hnone, hflag⟩ := hrun.stages hrequest rfl
    have hahead : s.ahead .response = [] := by
      simp [StreamState.ahead, hq.unfiltered hbefore]
    have hadded : s.ahead .response ++ stagesOn .response o.calls = [.headers] := by
      rw [hahead, hstages]
      rfl
    refine ⟨of_ne_response hnone, hadded ▸ .cons_cons _ (List.nil_sublist _), ?_, ?_⟩
    · intro hclose
      simp [closes_responseHeaders.mp ⟨_, hclose⟩] at he
    · intro _ replies hok
      refine hadded.trans ?_
      simp [StreamState.ahead, Message.sideOf, hflag replies hok]
  | @responseEnded h o s' he hrun =>
    obtain ⟨-, rfl⟩ := next_responseHeaders.mp hx
    have hrequest : s.request.isSome = true := hq.request (hfirst rfl)
    obtain ⟨hstages, hnone⟩ := hrun.stages hrequest rfl
    refine .of_ended hstages.append_nil (of_ne_response hnone) ?_
    simp [Message.sideOf, he]
  | chunkRefused side hover =>
    refine .of_silent rfl (fun _ => not_passes_error) ?_
    intro replies hok
    cases hok
  | chunkKept side he =>
    refine .of_silent rfl ?_ fun _ _ => ahead_setBody
    intro hclose
    simp [closes_bodyMessage.mp ⟨_, hclose⟩] at he
  | @bodyEnded side b o s' hcap he hrun =>
    obtain ⟨hbody, rfl⟩ := next_bodyMessage.mp hx
    rw [sideOf_bodyMessage] at hbody
    have hended : Function.update q (bodyMessage side b).sideOf
        (SidePhase.behind b.endOfStream) (bodyMessage side b).sideOf = .ended := by
      rw [Function.update_self, he]
      rfl
    cases hrun with
    | request hrun =>
      have hrequest : s.request.isSome = true := hq.request (by simp [hbody])
      obtain ⟨hstages, hnone⟩ := hrun.stages hrequest
      exact .of_ended hstages (of_ne_request hnone) hended
    | response hrun =>
      have hrequest : s.request.isSome = true := hq.request (hfirst rfl)
      obtain ⟨hstages, hnone⟩ := hrun.stages hrequest (hq.response hbody)
      exact .of_ended hstages (of_ne_response hnone) hended
  | trailers side t =>
    refine .of_silent rfl ?_ fun _ _ => rfl
    intro hclose
    exact (not_closes_trailersMessage ⟨_, hclose⟩).elim

/-- Response headers ahead of a body go through their hook. -/
theorem HandleRun.opens (h : HandleRun p s m o s') {headers : HttpHeaders}
    (hm : m = .responseHeaders headers) (hopen : headers.endOfStream = false)
    (hrequest : s.request.isSome = true) : o.calls ≠ [] := by
  cases h with
  | responseOpened he hrun =>
    obtain ⟨hstages, -⟩ := hrun.stages hrequest rfl
    intro hnone
    rw [hnone] at hstages
    cases hstages
  | responseEnded he hrun =>
    cases hm
    rw [he] at hopen
    cases hopen
  | requestOpened he | requestEnded he hrun => cases hm
  | chunkRefused side hover | chunkKept side he | bodyEnded side hcap he hrun
  | trailers side t => cases side <;> cases hm

/-- A message that leaves its side open brings its headers, or a chunk of its body. -/
theorem next_eq_body {x : SidePhase} (h : x.next m = some .body) :
    (x = .before ∧ ∃ headers : HttpHeaders, m = headersMessage m.sideOf headers ∧
        headers.endOfStream = false) ∨
      (x = .body ∧ ∃ b : HttpBody, m = bodyMessage m.sideOf b ∧ b.endOfStream = false) := by
  have hopen : ∀ {eos : Bool}, SidePhase.behind eos = .body → eos = false := by
    rintro ⟨⟩ heq
    · rfl
    · cases heq
  cases x with
  | before =>
    left
    cases m with
    | requestHeaders headers | responseHeaders headers =>
      exact ⟨rfl, headers, rfl, hopen (Option.some.inj h)⟩
    | requestBody b | responseBody b | requestTrailers t | responseTrailers t => cases h
  | body =>
    right
    cases m with
    | requestBody b | responseBody b => exact ⟨rfl, b, rfl, hopen (Option.some.inj h)⟩
    | requestHeaders headers | responseHeaders headers | requestTrailers t
    | responseTrailers t => cases h
  | ended => exact (ne_ended_of_next h rfl).elim

/-- Each message keeps the state on track. -/
theorem HandleRun.onTrack (h : HandleRun p s m o s') (hok : o.replies = .ok replies)
    (hq : OnTrack q s) (hnext : duplexNext q m = some r) : OnTrack r s' := by
  obtain ⟨hrequest, -⟩ := h.keeps
  obtain ⟨hresponse, hflag⟩ := h.held hok
  obtain ⟨hfirst, x, hx, rfl⟩ := duplexNext_eq_some.mp hnext
  cases hside : m.sideOf with
  | request =>
    rw [hside] at hx
    have hother : Side.response ≠ .request := by decide
    have hsame : Function.update q .request x .response = q .response :=
      Function.update_of_ne hother x q
    have hheaders : filtersAtHeaders m o = false := by
      cases m <;> first | rfl | cases hside
    have hopen : s'.response.isSome = s.response.isSome := by
      rw [hresponse, heldAfter_isSome]
      cases m <;> first | rfl | cases hside
    rw [hheaders, Bool.or_false] at hflag
    refine ⟨?_, ?_, ?_, ?_, ?_⟩
    · intro _
      rw [Function.update_self]
      exact next_ne_before hx
    · intro _
      rw [hrequest, Option.isSome_or]
      cases m with
      | requestHeaders headers => rfl
      | requestBody b | requestTrailers t =>
        have hbody : q .request = .body := by
          cases hphase : q .request <;> rw [hphase] at hx <;> first | rfl | cases hx
        rw [hq.request (by simp [hbody]), Bool.or_true]
      | responseHeaders headers | responseBody b | responseTrailers t => cases hside
    · intro hbody
      rw [hopen]
      exact hq.response (hsame.symm.trans hbody)
    · intro hbody
      rw [hflag]
      exact hq.filtered (hsame.symm.trans hbody)
    · intro hbefore
      rw [hflag]
      exact hq.unfiltered (hsame.symm.trans hbefore)
  | response =>
    rw [hside] at hx
    have hseen := hfirst hside
    have hother : Side.request ≠ .response := by decide
    have hsame : Function.update q .response x .request = q .request :=
      Function.update_of_ne hother x q
    refine ⟨?_, ?_, ?_, ?_, ?_⟩
    · intro _
      rw [hsame]
      exact hseen
    · intro _
      rw [hrequest, Option.isSome_or, hq.request hseen, Bool.or_true]
    · intro hbody
      rw [Function.update_self] at hbody
      subst hbody
      rw [hresponse, heldAfter_isSome]
      rcases next_eq_body hx with ⟨hbefore, headers, hm, he⟩ | ⟨hbody, b, hm, he⟩
      · rw [hm, hside]
        simp [openAfter, headersMessage, he]
      · rw [hm, hside, hq.response hbody]
        simp [openAfter, bodyMessage, he]
    · intro hbody
      rw [Function.update_self] at hbody
      subst hbody
      rw [hflag]
      rcases next_eq_body hx with ⟨hbefore, headers, hm, he⟩ | ⟨hbody, -⟩
      · rw [hside] at hm
        have hcalls : o.calls ≠ [] := h.opens hm he (hq.request hseen)
        simp [hm, filtersAtHeaders, headersMessage, he, hcalls]
      · rw [hq.filtered hbody, Bool.true_or]
    · intro hbefore
      rw [Function.update_self] at hbefore
      exact (next_ne_before hx hbefore).elim

theorem body_mem_stagesOn {calls : List (HookCall K)} {body : Option Bytes} {eos : Bool}
    (hc : HookCall.executeBody side ctx body eos ∈ calls) : .body ∈ stagesOn side calls := by
  refine List.mem_filterMap.mpr ⟨_, hc, ?_⟩
  cases side <;> rfl

theorem bodyLeft_of_no_body (h : .body ∉ stagesOn side o.calls) : o.bodyLeft p side = none := by
  cases hleft : o.bodyLeft p side with
  | none => rfl
  | some b =>
    obtain ⟨c, hc, hcleft⟩ := List.exists_of_findSome?_eq_some hleft
    obtain ⟨ctx, body, eos, rfl⟩ := executeBody_of_bodyLeft hcleft
    exact (h (body_mem_stagesOn hc)).elim

theorem body_notMem_ahead : .body ∉ s.ahead side := by
  cases side with
  | request => simp [StreamState.ahead]
  | response => cases hx : s.responseFiltersExecuted <;> simp [StreamState.ahead, hx]

/-- While a side is open its body hook has not run. -/
theorem Adds.no_body (h : Adds r s m o s') (hok : o.replies = .ok replies)
    (hopen : r side ≠ .ended) : .body ∉ stagesOn side o.calls := by
  by_cases hside : side = m.sideOf
  · subst hside
    intro hbody
    have hahead : .body ∈ s'.ahead m.sideOf := by
      rw [← h.isOpen hopen replies hok]
      exact List.mem_append_right _ hbody
    exact body_notMem_ahead hahead
  · rw [h.other side hside]
    exact List.not_mem_nil

theorem sideOf_of_closes (h : Closes side m) : m.sideOf = side := by
  cases h with
  | headers _ he => exact sideOf_headersMessage
  | body _ he => exact sideOf_bodyMessage

/-- What came of each side so far, and the hooks it went through. -/
structure Tracked (q : Duplex) (pre : List (Turn K)) (s : StreamState K) : Prop where
  onTrack : OnTrack q s
  bytes : ∀ side, q side ≠ .ended → s.body side = bytesOf side (pre.map Machine.Turn.message)
  ahead : ∀ side, q side ≠ .ended →
    stagesOn side (invoked (pre.map Machine.Turn.reply)) = s.ahead side
  inOrder : ∀ side,
    Sublist (stagesOn side (invoked (pre.map Machine.Turn.reply))) [.headers, .body]

theorem Tracked.new : Tracked (K := K) Duplex.start [] .new := by
  refine ⟨.new, ?_, ?_, fun _ => List.nil_sublist _⟩
  · intro side _
    cases side <;> rfl
  · intro side _
    cases side <;> rfl

theorem stagesOn_concat : stagesOn side (invoked ((pre ++ [t]).map Machine.Turn.reply)) =
    stagesOn side (invoked (pre.map Machine.Turn.reply)) ++ stagesOn side t.reply.calls := by
  simp

theorem ended_of_duplexNext (hnext : duplexNext q m = some r) : q m.sideOf ≠ .ended := by
  obtain ⟨-, x, hx, -⟩ := duplexNext_eq_some.mp hnext
  exact ne_ended_of_next hx

theorem open_of_duplexNext (hnext : duplexNext q m = some r) (hopen : r side ≠ .ended) :
    q side ≠ .ended := by
  by_cases hside : side = m.sideOf
  · rw [hside]
    exact ended_of_duplexNext hnext
  · obtain ⟨-, x, -, rfl⟩ := duplexNext_eq_some.mp hnext
    rwa [Function.update_of_ne hside] at hopen

/-- The hooks of a side behind a turn that brings its message. -/
theorem Tracked.stages (h : Tracked q pre t.before) (hnext : duplexNext q t.message = some r) :
    stagesOn t.message.sideOf (invoked ((pre ++ [t]).map Machine.Turn.reply)) =
      t.before.ahead t.message.sideOf ++ stagesOn t.message.sideOf t.reply.calls := by
  rw [stagesOn_concat, h.ahead _ (ended_of_duplexNext hnext)]

theorem Tracked.keeps_order (h : Tracked q pre t.before)
    (hadds : Adds r t.before t.message t.reply t.after)
    (hnext : duplexNext q t.message = some r) :
    Sublist (stagesOn side (invoked ((pre ++ [t]).map Machine.Turn.reply))) [.headers, .body] := by
  by_cases hside : side = t.message.sideOf
  · rw [hside, h.stages hnext]
    exact hadds.inOrder
  · rw [stagesOn_concat, hadds.other side hside, List.append_nil]
    exact h.inOrder side

theorem Tracked.step (h : Tracked q pre t.before)
    (hrun : HandleRun p t.before t.message t.reply t.after)
    (hok : t.reply.replies = .ok replies) (hnext : duplexNext q t.message = some r) :
    Tracked r (pre ++ [t]) t.after := by
  have hadds := hrun.adds h.onTrack hnext
  refine ⟨hrun.onTrack hok h.onTrack hnext, ?_, ?_, fun side => h.keeps_order hadds hnext⟩
  · intro side hopen
    have hnone := bodyLeft_of_no_body (p := p) (hadds.no_body hok hopen)
    rw [bytesOf_concat, ← h.bytes side (open_of_duplexNext hnext hopen), hrun.buffer hok, hnone,
      Option.getD_none]
  · intro side hopen
    by_cases hside : side = t.message.sideOf
    · rw [hside, h.stages hnext]
      rw [hside] at hopen
      exact hadds.isOpen hopen replies hok
    · rw [stagesOn_concat, hadds.other side hside, List.append_nil,
        h.ahead side (open_of_duplexNext hnext hopen)]
      obtain ⟨-, hflag⟩ := hrun.held hok
      cases side with
      | request => rfl
      | response =>
        have hheaders : filtersAtHeaders t.message t.reply = false := by
          cases hm : t.message <;> rw [hm] at hside <;> first | rfl | exact (hside rfl).elim
        rw [StreamState.ahead, StreamState.ahead, hflag, hheaders, Bool.or_false]

end Steps

theorem run_tracked (hms : Machine.Follows duplexNext Duplex.start ms)
    (hrun : (server p).run StreamState.new ms = pre ++ t :: post) :
    ∃ q r, Tracked q pre t.before ∧ duplexNext q t.message = some r ∧
      HandleRun p t.before t.message t.reply t.after := by
  have hturn := turn_run (run_replays hrun).2
  have htracked : ∃ q r, Tracked q pre t.before ∧ duplexNext q t.message = some r := by
    refine Machine.run_follows_history (P := Tracked) .new ?_ hms hrun
    intro q pre u m r hq hnext hgoes
    obtain ⟨replies, hok⟩ := exists_replies_of_goes hgoes
    exact Tracked.step (t := (server p).turn u m) hq (handle_run p u m) hok hnext
  obtain ⟨q, r, hq, hnext⟩ := htracked
  exact ⟨q, r, hq, hnext, hturn⟩

theorem OnTrack.ahead_of_body (hq : OnTrack q s) (hbody : q side = .body) :
    s.ahead side = stagesAheadOfBody side := by
  cases side with
  | request => rfl
  | response => rw [StreamState.ahead, if_pos (hq.filtered hbody), stagesAheadOfBody]

theorem calls_trailersMessage {tr : HttpTrailers} :
    (handle p s (trailersMessage side tr)).1.calls = [] := by
  cases side <;> rfl

/-- Trailers add no hook to those their side went through ahead of its body. -/
theorem Tracked.trailers {tr : HttpTrailers} (h : Tracked q pre t.before)
    (hreply : t.reply = (handle p t.before t.message).1) (hnext : duplexNext q t.message = some r)
    (hm : t.message = trailersMessage side tr) :
    stagesOn side (invoked ((pre ++ [t]).map Machine.Turn.reply)) = stagesAheadOfBody side := by
  have hstages := h.stages hnext
  obtain ⟨-, x, hx, -⟩ := duplexNext_eq_some.mp hnext
  rw [hm, sideOf_trailersMessage] at hx hstages
  rw [hstages, hreply, hm, calls_trailersMessage, stagesOn_nil, List.append_nil]
  exact h.onTrack.ahead_of_body (next_trailersMessage.mp hx).1

/-- On a stream whose sides come each in order, in any interleaving, the hooks of a side run at most
once each, headers first, and the body hook is given all bytes of its side and never none. A side
that `end_of_stream` ends, if it passes, went through just those it is due: its header hook, and its
body hook if it has a body. A side that trailers end went through no more than what runs ahead of a
body. -/
theorem hooks_run_once (hms : Machine.Follows duplexNext Duplex.start ms)
    (hrun : (server p).run StreamState.new ms = pre ++ t :: post) :
    (∀ side, Sublist (stagesOn side (invoked ((pre ++ [t]).map Machine.Turn.reply)))
      [.headers, .body]) ∧
    (∀ side, GivenBody side (bytesOf side ((pre ++ [t]).map Machine.Turn.message)) t.reply) ∧
    (∀ side, Closes side t.message → Passes t.reply →
      stagesOn side (invoked ((pre ++ [t]).map Machine.Turn.reply)) =
        wholeStages (bytesOf side ((pre ++ [t]).map Machine.Turn.message))) ∧
    ∀ side tr, t.message = trailersMessage side tr →
      stagesOn side (invoked ((pre ++ [t]).map Machine.Turn.reply)) =
        stagesAheadOfBody side := by
  obtain ⟨q, r, hq, hnext, hturn⟩ := run_tracked hms hrun
  have hreply : t.reply = (handle p t.before t.message).1 :=
    congrArg Machine.Turn.reply (run_replays hrun).2
  have hadds := hturn.adds hq.onTrack hnext
  have hbytes : t.before.body t.message.sideOf ++ chunkOf t.message.sideOf t.message =
      bytesOf t.message.sideOf ((pre ++ [t]).map Machine.Turn.message) := by
    rw [bytesOf_concat, hq.bytes _ (ended_of_duplexNext hnext)]
  refine ⟨fun side => hq.keeps_order hadds hnext, ?_, ?_, ?_⟩
  · intro side ctx body eos hc
    by_cases hside : side = t.message.sideOf
    · subst hside
      rw [← hbytes]
      exact hturn.givenBody ctx body eos hc
    · have hbody := body_mem_stagesOn hc
      rw [hadds.other side hside] at hbody
      cases hbody
  · rintro side hclose hpasses
    obtain rfl := sideOf_of_closes hclose
    rw [hq.stages hnext, hadds.whole hclose hpasses, hbytes]
  · intro side tr hm
    exact hq.trailers hreply hnext hm

section EarlyResponse

/-- A response that begins before its request is over. -/
def earlyScript : List Message :=
  [.requestHeaders ⟨none, false⟩, .responseHeaders ⟨none, false⟩, .requestBody ⟨[1], true⟩,
    .responseBody ⟨[2], true⟩]

def earlyTurns : List (Turn httpCrates) := (server passAll).run .new (earlyScript.take 3)

def earlyEnd : Turn httpCrates :=
  (server passAll).turn (replay passAll earlyTurns) (.responseBody ⟨[2], true⟩)

theorem early_follows : Machine.Follows duplexNext Duplex.start earlyScript :=
  ⟨_, rfl, _, rfl, _, rfl, _, rfl, trivial⟩

theorem early_run : (server passAll).run .new earlyScript = earlyTurns ++ earlyEnd :: [] := rfl

theorem early_hooks : stagesOn .response
    (invoked ((earlyTurns ++ [earlyEnd]).map Machine.Turn.reply)) = [.headers, .body] := by
  obtain ⟨-, -, hwhole, -⟩ := hooks_run_once early_follows early_run
  refine hwhole .response (.body .response rfl) ⟨_, rfl, ?_⟩
  intro imm hmem
  cases List.mem_singleton.mp hmem

end EarlyResponse

end ExtProc
