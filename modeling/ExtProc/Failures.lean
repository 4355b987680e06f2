import ExtProc.Coalesce
import ExtProc.Replay
import ExtProc.Replies

/-! Why a stream fails: every status, from the messages and the hooks before it. -/
namespace ExtProc

open Utf8 (Bytes)

variable {K : Crates} {p : FilterPipeline K} {s s' : StreamState K} {m : Message} {side : Side}
  {ctx ctx' : HttpFilterContext K} {o : Outcome K} {st : Status} {c : HookCall K}
  {first events : List (Event K)} {calls calls' : List (HookCall K)}

/-- The last hook invoked failed, and the status says how. -/
def LastFailed (p : FilterPipeline K) (calls : List (HookCall K)) (st : Status) : Prop :=
  ∃ c e, calls.getLast? = some c ∧ p.result c = .error e ∧ st = Status.internal e

/-- Response headers ahead of a body were rejected, and the status carries the body. -/
def RefusedHeaders (p : FilterPipeline K) (calls : List (HookCall K)) (st : Status) : Prop :=
  ∃ ctx r, calls = [.executeHttpResponse ctx] ∧
    (p.executeHttpResponse ctx).result = .ok (.reject r) ∧
      st = Status.aborted (rejectionToImmediate r).body

@[simp] theorem lastFailed_nil : LastFailed p [] st ↔ False := by
  simp [LastFailed]

@[simp] theorem lastFailed_singleton :
    LastFailed p [c] st ↔ ∃ e, p.result c = .error e ∧ st = Status.internal e := by
  simp [LastFailed]

/-- Hooks that continue are not the ones that fail. -/
theorem lastFailed_append (h : ∀ c ∈ calls, p.result c = .ok .«continue») :
    LastFailed p (calls ++ calls') st ↔ LastFailed p calls' st := by
  cases hlast : calls'.getLast? with
  | some c => simp [LastFailed, List.getLast?_append, hlast]
  | none =>
    rw [List.getLast?_eq_none_iff.mp hlast, List.append_nil, lastFailed_nil, iff_false]
    rintro ⟨c, e, hc, he, -⟩
    rw [h c (List.mem_of_getLast? hc)] at he
    cases he

theorem BodyRun.failed_iff {res : Except Status (HttpFilterContext K × Option ImmediateResponse)}
    (h : BodyRun p side ctx s res events s') :
    res = .error st ↔ LastFailed p (callsOf events) st := by
  cases h with
  | skipped hb => simp
  | failed hb he => simp [he, eq_comm]
  | rejected hb hr => simp [hr]
  | continued hb hc => simp [hc]

theorem RequestRun.failed_iff (h : RequestRun p s o s') : o.replies = .error st ↔
    s.request = none ∧ o.calls = [] ∧ st = noRequestHeaders ∨ LastFailed p o.calls st := by
  have hbehind : ∀ {ctx : HttpFilterContext K} {events : List (Event K)},
      (p.executeHttpRequest ctx).result = .ok .«continue» →
        (LastFailed p (callsOf (.hook (.executeHttpRequest ctx) :: events)) st ↔
          LastFailed p (callsOf events) st) := by
    intro ctx events hc
    have hpasses : ∀ c ∈ [HookCall.executeHttpRequest ctx], p.result c = .ok .«continue» := by
      intro c hmem
      rw [List.mem_singleton.mp hmem]
      exact hc
    exact lastFailed_append hpasses
  cases h with
  | noRequest hq => simp [hq, eq_comm]
  | failed hq he =>
    simp [hq, FilterPipeline.result, he, eq_comm]
  | rejected hq hr => simp [hq, FilterPipeline.result, hr]
  | bodyFailed hq hc hb =>
    have hiff : _ ↔ LastFailed p _ st := hb.failed_iff
    rw [calls_mk, hbehind hc, ← hiff]
    simp [hq]
  | bodyRejected hq hc hb | done hq hc hb =>
    have hiff : _ ↔ LastFailed p _ st := hb.failed_iff
    rw [calls_mk, hbehind hc, ← hiff]
    simp [hq]

theorem HeaderHook.passes (h : HeaderHook p s ctx ctx' first) :
    ∀ c ∈ callsOf first, p.result c = .ok .«continue» := by
  intro c hc
  cases h with
  | ran hx hran =>
    rw [List.mem_singleton.mp hc]
    exact hran
  | skipped hx => cases hc

theorem ResponseRun.failed_iff (h : ResponseRun p s o s') : o.replies = .error st ↔
    s.request = none ∧ o.calls = [] ∧ st = noRequestHeaders ∨
      s.request ≠ none ∧ s.response = none ∧ o.calls = [] ∧ st = noResponseHeaders ∨
        LastFailed p o.calls st := by
  cases h with
  | noRequest hq => simp [hq, eq_comm]
  | noResponse hq hp => simp [hq, hp, eq_comm]
  | failed hq hp hx he => simp [hq, hp, FilterPipeline.result, he, eq_comm]
  | rejected hq hp hx hr => simp [hq, hp, FilterPipeline.result, hr]
  | bodyFailed hq hp hf hb =>
    have hiff : _ ↔ LastFailed p _ st := hb.failed_iff
    rw [calls_mk, callsOf_append, lastFailed_append hf.passes, ← hiff]
    simp [hq, hp]
  | bodyRejected hq hp hf hb | done hq hp hf hb =>
    have hiff : _ ↔ LastFailed p _ st := hb.failed_iff
    rw [calls_mk, callsOf_append, lastFailed_append hf.passes, ← hiff]
    simp [hq, hp]

theorem HeaderRun.failed_iff (h : HeaderRun p s o s') :
    o.replies = .error st ↔ LastFailed p o.calls st ∨ RefusedHeaders p o.calls st := by
  cases h with
  | noRequest hq | noResponse hq hp => simp [RefusedHeaders]
  | failed hq hp he => simp [RefusedHeaders, FilterPipeline.result, he, eq_comm]
  | rejected hq hp hr => simp [RefusedHeaders, FilterPipeline.result, hr, eq_comm]
  | done hq hp hc => simp [RefusedHeaders, FilterPipeline.result, hc]

def Message.isRequestHeaders : Message → Bool
  | .requestHeaders _ => true
  | _ => false

/-- A chunk over what its side may hold, with the bytes it holds already. -/
def Overflows (held : Side → Nat) (m : Message) : Prop :=
  ∃ side b, m = bodyMessage side b ∧ maxBodyAccumulation < held side + b.body.length

/-- Why a message fails, with the hooks it invoked and the status it gets: from the bytes its side
holds, and from whether there is a request and a response. -/
inductive Fails (p : FilterPipeline K) (held : Side → Nat) (request response : Bool) (m : Message) :
    List (HookCall K) → Status → Prop
  | overflow (hover : Overflows held m) : Fails p held request response m [] bodyTooLarge
  | noRequest {side : Side} (hclose : Closes side m) (hfits : ¬ Overflows held m)
      (hopens : m.isRequestHeaders = false) (hq : request = false) :
      Fails p held request response m [] noRequestHeaders
  | noResponse {b : HttpBody} (hm : m = .responseBody b) (he : b.endOfStream = true)
      (hfits : ¬ Overflows held m) (hq : request = true) (hp : response = false) :
      Fails p held request response m [] noResponseHeaders
  | hook {calls : List (HookCall K)} {st : Status} (hlast : LastFailed p calls st) :
      Fails p held request response m calls st
  | refused {h : HttpHeaders} {calls : List (HookCall K)} {st : Status}
      (hm : m = .responseHeaders h) (he : h.endOfStream = false)
      (hrefused : RefusedHeaders p calls st) : Fails p held request response m calls st

section Reasons
variable {held : Side → Nat} {request response : Bool}

theorem fails_iff : Fails p held request response m calls st ↔
    Overflows held m ∧ calls = [] ∧ st = bodyTooLarge ∨
    ((∃ side, Closes side m) ∧ ¬ Overflows held m ∧ m.isRequestHeaders = false ∧
      request = false) ∧ calls = [] ∧ st = noRequestHeaders ∨
    ((∃ b, m = .responseBody b ∧ b.endOfStream = true) ∧ ¬ Overflows held m ∧ request = true ∧
      response = false) ∧ calls = [] ∧ st = noResponseHeaders ∨
    LastFailed p calls st ∨
    (∃ h, m = .responseHeaders h ∧ h.endOfStream = false) ∧ RefusedHeaders p calls st := by
  constructor
  · intro h
    cases h with
    | overflow hover => exact Or.inl ⟨hover, rfl, rfl⟩
    | noRequest hclose hfits hopens hq =>
      exact Or.inr (Or.inl ⟨⟨⟨_, hclose⟩, hfits, hopens, hq⟩, rfl, rfl⟩)
    | noResponse hm he hfits hq hp =>
      exact Or.inr (Or.inr (Or.inl ⟨⟨⟨_, hm, he⟩, hfits, hq, hp⟩, rfl, rfl⟩))
    | hook hlast => exact Or.inr (Or.inr (Or.inr (Or.inl hlast)))
    | refused hm he hrefused => exact Or.inr (Or.inr (Or.inr (Or.inr ⟨⟨_, hm, he⟩, hrefused⟩)))
  · rintro (⟨hover, rfl, rfl⟩ | ⟨⟨⟨side, hclose⟩, hfits, hopens, hq⟩, rfl, rfl⟩ |
      ⟨⟨⟨b, hm, he⟩, hfits, hq, hp⟩, rfl, rfl⟩ | hlast | ⟨⟨h, hm, he⟩, hrefused⟩)
    · exact .overflow hover
    · exact .noRequest hclose hfits hopens hq
    · exact .noResponse hm he hfits hq hp
    · exact .hook hlast
    · exact .refused hm he hrefused

end Reasons

section Messages
variable {held : Side → Nat} {h : HttpHeaders} {b : HttpBody} {t : HttpTrailers} {side' : Side}

@[simp] theorem overflows_bodyMessage : Overflows held (bodyMessage side b) ↔
    maxBodyAccumulation < held side + b.body.length := by
  constructor
  · rintro ⟨side', b', hm, hover⟩
    cases side <;> cases side' <;> cases hm <;> exact hover
  · intro hover
    exact ⟨side, b, rfl, hover⟩

@[simp] theorem not_overflows_requestHeaders : ¬ Overflows held (.requestHeaders h) := by
  rintro ⟨side, b, hm, -⟩
  cases side <;> cases hm

@[simp] theorem not_overflows_responseHeaders : ¬ Overflows held (.responseHeaders h) := by
  rintro ⟨side, b, hm, -⟩
  cases side <;> cases hm

@[simp] theorem not_overflows_trailersMessage : ¬ Overflows held (trailersMessage side t) := by
  rintro ⟨side', b, hm, -⟩
  cases side <;> cases side' <;> cases hm

@[simp] theorem closes_bodyMessage :
    (∃ side', Closes side' (bodyMessage side b)) ↔ b.endOfStream = true := by
  constructor
  · rintro ⟨side', hclose⟩
    generalize hm : bodyMessage side b = m at hclose
    cases hclose with
    | headers _ he => cases side <;> cases side' <;> cases hm
    | body _ he =>
      cases side <;> cases side' <;> cases hm
      · exact he
      · exact he
  · intro he
    exact ⟨side, .body side he⟩

@[simp] theorem closes_requestHeaders :
    (∃ side', Closes side' (.requestHeaders h)) ↔ h.endOfStream = true := by
  constructor
  · rintro ⟨side', hclose⟩
    generalize hm : Message.requestHeaders h = m at hclose
    cases hclose with
    | headers _ he =>
      cases side' <;> cases hm
      exact he
    | body _ he => cases side' <;> cases hm
  · intro he
    exact ⟨.request, .headers .request he⟩

@[simp] theorem closes_responseHeaders :
    (∃ side', Closes side' (.responseHeaders h)) ↔ h.endOfStream = true := by
  constructor
  · rintro ⟨side', hclose⟩
    generalize hm : Message.responseHeaders h = m at hclose
    cases hclose with
    | headers _ he =>
      cases side' <;> cases hm
      exact he
    | body _ he => cases side' <;> cases hm
  · intro he
    exact ⟨.response, .headers .response he⟩

@[simp] theorem not_closes_trailersMessage : ¬ ∃ side', Closes side' (trailersMessage side t) := by
  rintro ⟨side', hclose⟩
  generalize hm : trailersMessage side t = m at hclose
  cases hclose with
  | headers _ he => cases side <;> cases side' <;> cases hm
  | body _ he => cases side <;> cases side' <;> cases hm

@[simp] theorem bodyMessage_eq_responseBody {b' : HttpBody} :
    bodyMessage side b = .responseBody b' ↔ side = .response ∧ b = b' := by
  cases side <;> simp [bodyMessage]
@[simp] theorem bodyMessage_ne_responseHeaders : bodyMessage side b ≠ .responseHeaders h := by
  cases side <;> simp [bodyMessage]
@[simp] theorem trailersMessage_ne_responseBody : trailersMessage side t ≠ .responseBody b := by
  cases side <;> simp [trailersMessage]
@[simp] theorem trailersMessage_ne_responseHeaders :
    trailersMessage side t ≠ .responseHeaders h := by
  cases side <;> simp [trailersMessage]

@[simp] theorem isRequestHeaders_requestHeaders :
    (Message.requestHeaders h).isRequestHeaders = true := rfl
@[simp] theorem isRequestHeaders_responseHeaders :
    (Message.responseHeaders h).isRequestHeaders = false := rfl
@[simp] theorem isRequestHeaders_bodyMessage :
    (bodyMessage side b).isRequestHeaders = false := by
  cases side <;> rfl

end Messages

/-- What a state holds of each side. -/
def StreamState.held (s : StreamState K) (side : Side) : Nat := (s.body side).length

/-- A message fails for one of these reasons and for no other. -/
theorem HandleRun.failed_iff (h : HandleRun p s m o s')
    (hrefused : Overflows s.held m → o = ⟨.error bodyTooLarge, []⟩) :
    o.replies = .error st ↔
      Fails p s.held s.request.isSome s.response.isSome m o.calls st := by
  rw [fails_iff]
  cases h with
  | requestOpened he => simp
  | requestEnded he hrun =>
    rw [hrun.failed_iff]
    simp [StreamState.setRequest]
  | responseOpened he hrun =>
    rw [hrun.failed_iff]
    simp [he]
  | responseEnded he hrun =>
    rw [hrun.failed_iff]
    simp [he, StreamState.setResponse]
  | @chunkRefused side b hover =>
    have hover' : Overflows s.held (bodyMessage side b) := overflows_bodyMessage.mpr hover
    simp only [calls_mk, callsOf_nil, lastFailed_nil, hover', not_true, Except.error.injEq,
      true_and, false_and, and_false, or_false, bodyMessage_ne_responseHeaders, exists_false,
      eq_comm]
  | @chunkKept side b he =>
    have hfits : ¬ Overflows s.held (bodyMessage side b) := by
      intro hover
      cases hrefused hover
    simp [he, hfits]
  | @bodyEnded side b o s' hcap he hrun =>
    have hfits : ¬ Overflows s.held (bodyMessage side b) := by
      rw [overflows_bodyMessage]
      exact Nat.not_lt.mpr hcap
    cases hrun with
    | request hrun =>
      rw [hrun.failed_iff]
      simp [he, hfits, StreamState.setBody]
    | response hrun =>
      rw [hrun.failed_iff]
      simp [he, hfits, StreamState.setBody, Option.isSome_iff_ne_none, and_assoc]
  | trailers side t => simp

def requestSeen (ms : List Message) : Bool := ms.any Message.isRequestHeaders

def openAfter (isOpen : Bool) : Message → Bool
  | .responseHeaders h => !h.endOfStream
  | .responseBody b => isOpen && !b.endOfStream
  | _ => isOpen

theorem latestRequest_isSome (turns : List (Turn K)) :
    (latestRequest turns).isSome = requestSeen (turns.map Machine.Turn.message) := by
  induction turns using List.reverseRecOn with
  | nil => rfl
  | append_singleton turns t ih =>
    have hlast : latestRequest (turns ++ [t]) =
        (openedBy K t.message).or (latestRequest turns) := by
      simp [latestRequest]
    have hone : (openedBy K t.message).isSome = t.message.isRequestHeaders := by
      cases t.message <;> rfl
    rw [hlast, Option.isSome_or, hone, ih, requestSeen, requestSeen, List.map_append,
      List.any_append, Bool.or_comm]
    simp

theorem heldAfter_isSome {held : Option (Response K)} :
    (heldAfter p held m o).isSome = openAfter held.isSome m := by
  cases m with
  | responseHeaders h =>
    cases he : h.endOfStream with
    | true => simp [heldAfter, openAfter, he]
    | false =>
      simp only [heldAfter, openAfter, he, Bool.not_false, Bool.false_eq_true, if_false]
      split <;> rfl
  | responseBody b => cases he : b.endOfStream <;> simp [heldAfter, openAfter, he]
  | requestHeaders h | requestBody b | requestTrailers t | responseTrailers t => rfl

section Headless

end Headless

end ExtProc
