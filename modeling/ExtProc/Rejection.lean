import ExtProc.Http
import ExtProc.Outcomes

/-! How a rejection by a hook reaches Envoy. -/
namespace ExtProc

open Utf8 (Bytes asBytes fromUtf8 fromUtf8_asBytes fromUtf8Lossy_eq)

variable {K : Crates} {p : FilterPipeline K} {s s' : StreamState K} {m : Message}
  {side : Side} {ctx : HttpFilterContext K} {o : Outcome K} {c : HookCall K} {r : Rejection}
  {pre post : List (HookCall K)} {events : List (Event K)}

/-- What an entry of a header mutation sets: a name, a text, and the bytes of the value. -/
def HeaderValueOption.entry (h : HeaderValueOption) : Option (String × String × Bytes) :=
  h.header.map fun hv => (hv.key, hv.value, hv.rawValue)

/-- An immediate response that says what the rejection says. -/
structure Conveys (r : Rejection) (imm : ImmediateResponse) : Prop where
  status : ∃ st, imm.status = some st ∧ st.code.toInt = r.status.toNat
  noHeaders : r.headers = [] → imm.headers = none
  headers : r.headers ≠ [] → ∃ mutation, imm.headers = some mutation ∧
    mutation.removeHeaders = [] ∧
    mutation.setHeaders.map HeaderValueOption.entry =
      r.headers.map fun h => some (h.1, h.2, asBytes h.2)
  noBody : r.body = none → imm.body = ""
  body : ∀ bytes text, r.body = some bytes → fromUtf8 bytes = some text → imm.body = text

theorem rejectionToImmediate_conveys (r : Rejection) : Conveys r (rejectionToImmediate r) where
  status := by
    refine ⟨_, rfl, ?_⟩
    have hlt := r.status.toNat_lt
    simp only
    rw [Int32.toInt_ofNat_of_lt (by omega)]
  noHeaders := by
    intro h
    simp [rejectionToImmediate, h]
  headers := by
    intro h
    refine ⟨rejectionHeadersToMutation r.headers, ?_, rfl, ?_⟩
    · simp [rejectionToImmediate, h]
    · simp [rejectionHeadersToMutation, HeaderValueOption.entry, headerValueOption]
  noBody := by
    intro h
    simp [rejectionToImmediate, h]
  body := by
    intro bytes text hb ht
    simp [rejectionToImmediate, hb, fromUtf8Lossy_eq ht]

/-- The rejection is the whole answer: one immediate response, and no hook behind it. -/
def RejectionReached (o : Outcome K) (r : Rejection) (post : List (HookCall K)) : Prop :=
  post = [] ∧ ∃ imm, o.replies = .ok [Reply.immediate imm] ∧ Conveys r imm

/-- The message whose rejection the server reports as a status: response headers with a body
behind them, whose filters run at header time. -/
def AtHeaderTime (m : Message) : Prop := ∃ h, m = .responseHeaders h ∧ h.endOfStream = false

/-- An only call has no other before or behind it. -/
theorem only_call {d : HookCall K} (h : [d] = pre ++ c :: post) : c = d ∧ post = [] := by
  rcases pre with - | ⟨e, pre⟩ <;> simp at h
  exact ⟨h.1.symm, h.2⟩

/-- A rejecting body hook is the last one, and its rejection is handed on. -/
theorem BodyRun.rejection {res : Except Status (HttpFilterContext K × Option ImmediateResponse)}
    (h : BodyRun p side ctx s res events s') (hcalls : callsOf events = pre ++ c :: post)
    (hrej : p.result c = .ok (.reject r)) :
    post = [] ∧ ∃ ctx', res = .ok (ctx', some (rejectionToImmediate r)) := by
  cases h with
  | skipped hb => simp at hcalls
  | failed hb he | continued hb he =>
    obtain ⟨rfl, -⟩ := only_call hcalls
    simp [he] at hrej
  | rejected hb hr =>
    obtain ⟨rfl, hpost⟩ := only_call hcalls
    simp only [result_bodyHookCall, hr, Except.ok.injEq, FilterAction.reject.injEq] at hrej
    subst hrej
    exact ⟨hpost, _, rfl⟩

/-- A call that continues does not reject, so a rejection comes behind it. -/
theorem rejection_behind {d : HookCall K} {calls : List (HookCall K)}
    (hcalls : d :: calls = pre ++ c :: post) (hd : p.result d = .ok .«continue»)
    (hrej : p.result c = .ok (.reject r)) : ∃ pre', calls = pre' ++ c :: post := by
  cases pre with
  | nil =>
    obtain ⟨rfl, -⟩ := List.cons.inj hcalls
    simp [hd] at hrej
  | cons e pre => exact ⟨pre, (List.cons.inj hcalls).2⟩

theorem RequestRun.rejection (h : RequestRun p s o s') (hcalls : o.calls = pre ++ c :: post)
    (hrej : p.result c = .ok (.reject r)) :
    post = [] ∧ o.replies = .ok [Reply.immediate (rejectionToImmediate r)] := by
  cases h with
  | noRequest hq => simp at hcalls
  | failed hq he =>
    obtain ⟨rfl, -⟩ := only_call hcalls
    simp [FilterPipeline.result, he] at hrej
  | rejected hq hr =>
    obtain ⟨rfl, hpost⟩ := only_call hcalls
    simp only [FilterPipeline.result, hr] at hrej
    cases hrej
    exact ⟨hpost, rfl⟩
  | bodyFailed hq hc hb | done hq hc hb =>
    obtain ⟨pre', hbody⟩ := rejection_behind hcalls hc hrej
    obtain ⟨-, ctx', hres⟩ := hb.rejection hbody hrej
    cases hres
  | bodyRejected hq hc hb =>
    obtain ⟨pre', hbody⟩ := rejection_behind hcalls hc hrej
    obtain ⟨hpost, ctx', hres⟩ := hb.rejection hbody hrej
    cases hres
    exact ⟨hpost, rfl⟩

/-- The header hook ahead of the body hook does not reject, so a rejection comes behind it. -/
theorem HeaderHook.rejection {ctx' : HttpFilterContext K} {calls : List (HookCall K)}
    (h : HeaderHook p s ctx ctx' events) (hcalls : callsOf events ++ calls = pre ++ c :: post)
    (hrej : p.result c = .ok (.reject r)) : ∃ pre', calls = pre' ++ c :: post := by
  cases h with
  | skipped hx => exact ⟨pre, by simpa using hcalls⟩
  | ran hx hc => exact rejection_behind hcalls hc hrej

theorem ResponseRun.rejection (h : ResponseRun p s o s') (hcalls : o.calls = pre ++ c :: post)
    (hrej : p.result c = .ok (.reject r)) :
    post = [] ∧ o.replies = .ok [Reply.immediate (rejectionToImmediate r)] := by
  cases h with
  | noRequest hq => simp at hcalls
  | noResponse hq hp => simp at hcalls
  | failed hq hp hx he =>
    obtain ⟨rfl, -⟩ := only_call hcalls
    simp [FilterPipeline.result, he] at hrej
  | rejected hq hp hx hr =>
    obtain ⟨rfl, hpost⟩ := only_call hcalls
    simp only [FilterPipeline.result, hr] at hrej
    cases hrej
    exact ⟨hpost, rfl⟩
  | bodyFailed hq hp hf hb | done hq hp hf hb =>
    simp only [calls_mk, callsOf_append] at hcalls
    obtain ⟨pre', hbody⟩ := hf.rejection hcalls hrej
    obtain ⟨-, ctx', hres⟩ := hb.rejection hbody hrej
    cases hres
  | bodyRejected hq hp hf hb =>
    simp only [calls_mk, callsOf_append] at hcalls
    obtain ⟨pre', hbody⟩ := hf.rejection hcalls hrej
    obtain ⟨hpost, ctx', hres⟩ := hb.rejection hbody hrej
    cases hres
    exact ⟨hpost, rfl⟩

/-- At header time a rejection becomes a status, so no reply carries it. -/
theorem HeaderRun.rejection (h : HeaderRun p s o s') (hcalls : o.calls = pre ++ c :: post)
    (hrej : p.result c = .ok (.reject r)) : ∃ st, o.replies = .error st := by
  cases h with
  | noRequest hq => simp at hcalls
  | noResponse hq hp => simp at hcalls
  | failed hq hp he => exact ⟨_, rfl⟩
  | rejected hq hp hr => exact ⟨_, rfl⟩
  | done hq hp hc =>
    obtain ⟨rfl, -⟩ := only_call hcalls
    simp [FilterPipeline.result, hc] at hrej

theorem SideRun.rejection (h : SideRun p s side o s') (hcalls : o.calls = pre ++ c :: post)
    (hrej : p.result c = .ok (.reject r)) : RejectionReached o r post := by
  cases h with
  | request h =>
    obtain ⟨hpost, hreply⟩ := h.rejection hcalls hrej
    exact ⟨hpost, _, hreply, rejectionToImmediate_conveys r⟩
  | response h =>
    obtain ⟨hpost, hreply⟩ := h.rejection hcalls hrej
    exact ⟨hpost, _, hreply, rejectionToImmediate_conveys r⟩

@[simp] theorem atHeaderTime_responseHeaders (h : HttpHeaders) :
    AtHeaderTime (.responseHeaders h) ↔ h.endOfStream = false := by
  simp [AtHeaderTime]

theorem HandleRun.rejection_iff (h : HandleRun p s m o s') (hcalls : o.calls = pre ++ c :: post)
    (hrej : p.result c = .ok (.reject r)) : RejectionReached o r post ↔ ¬ AtHeaderTime m := by
  cases h with
  | requestOpened he | chunkRefused side hover | chunkKept side he | trailers side t =>
    simp at hcalls
  | requestEnded he hrun =>
    exact iff_of_true (SideRun.rejection (.request hrun) hcalls hrej) (by simp [AtHeaderTime])
  | responseEnded he hrun =>
    exact iff_of_true (SideRun.rejection (.response hrun) hcalls hrej) (by simp [he])
  | responseOpened he hrun =>
    refine iff_of_false ?_ (by simp [he])
    rintro ⟨-, imm, hreply, -⟩
    obtain ⟨st, hst⟩ := hrun.rejection hcalls hrej
    simp [hst] at hreply
  | bodyEnded side hcap he hrun =>
    refine iff_of_true (hrun.rejection hcalls hrej) ?_
    cases side <;> simp [AtHeaderTime, bodyMessage]

/-- Whichever hook rejects, Envoy gets the rejection as an immediate response, unless the
rejecting hook is `execute_http_response` at header time. -/
theorem rejection_reached_iff (hcalls : (handle p s m).1.calls = pre ++ c :: post)
    (hrej : p.result c = .ok (.reject r)) :
    RejectionReached (handle p s m).1 r post ↔ ¬ AtHeaderTime m :=
  (handle_run p s m).rejection_iff hcalls hrej

section Refusal

def forbidden : Rejection where
  status := 403
  headers := [("x-why", "policy")]
  body := some (asBytes "no")

def refuseResponse : FilterPipeline httpCrates :=
  { passAll with
    executeHttpResponse := fun ctx =>
      ⟨ctx, ctx.responseHeader.getD ⟨.empty, 200⟩, .ok (.reject forbidden)⟩ }

theorem rejection_reached_at_end_of_stream :
    RejectionReached
      (handle refuseResponse requested (.responseHeaders ⟨none, true⟩)).1 forbidden [] :=
  have hcalls : (handle refuseResponse requested (.responseHeaders ⟨none, true⟩)).1.calls =
      [] ++ .executeHttpResponse (responseCtx requested plainRequest plainResponse) :: [] := rfl
  (rejection_reached_iff hcalls rfl).mpr (by simp)

/-- With a body to come, the same rejection ends the stream with a status. -/
theorem rejection_lost_at_header_time :
    ∃ c, (handle refuseResponse requested (.responseHeaders ⟨none, false⟩)).1.calls = [c] ∧
      refuseResponse.result c = .ok (.reject forbidden) ∧
      (handle refuseResponse requested (.responseHeaders ⟨none, false⟩)).1.replies =
        .error (Status.aborted "no") ∧
      ¬ RejectionReached
        (handle refuseResponse requested (.responseHeaders ⟨none, false⟩)).1 forbidden [] := by
  refine ⟨.executeHttpResponse (responseCtx requested plainRequest plainResponse), rfl, rfl, ?_, ?_⟩
  · exact congrArg (fun text => Except.error (Status.aborted text))
      (fromUtf8Lossy_eq (fromUtf8_asBytes "no"))
  · rintro ⟨-, imm, hreply, -⟩
    cases hreply

end Refusal

end ExtProc
