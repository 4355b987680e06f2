import ExtProc.Budget
import ExtProc.HeaderGuard

/-! How often the response filters run, on messages in any order. -/
namespace ExtProc

open Machine (Paid cost)

variable {K : Crates} {p : FilterPipeline K} {s s' : StreamState K} {m : Message} {side : Side}
  {ctx ctx' : HttpFilterContext K} {o : Outcome K} {resp : Response K}
  {events first : List (Event K)} {ms : List Message}

def HookCall.isExecuteHttpResponseBody : HookCall K → Bool
  | .executeHttpResponseBody _ _ _ => true
  | _ => false

def Message.isResponseHeaders : Message → Bool
  | .responseHeaders _ => true
  | _ => false

def Outcome.headerCalls (o : Outcome K) : Nat := o.calls.countP HookCall.isExecuteHttpResponse

def Outcome.bodyCalls (o : Outcome K) : Nat := o.calls.countP HookCall.isExecuteHttpResponseBody

/-- The `ResponseHeaders` messages among the turns. -/
def responses (turns : List (Turn K)) : Nat := turns.countP fun t => t.message.isResponseHeaders

def convertedBy (K : Crates) : Message → Option (Response K)
  | .responseHeaders h => some (envoyHeadersToResponse K (extractHeaderList h))
  | _ => none

/-- The response converted from the most recent response headers. -/
def latestResponse (turns : List (Turn K)) : Option (Response K) :=
  turns.foldl (fun latest t => (convertedBy K t.message).or latest) none

/-- At every point no response filter ran more often than response headers came, and what
`execute_http_response` is lent was converted from the latest of them, which it sees once. -/
structure RunsOnce (turns : List (Turn K)) : Prop where
  header : ∀ pre post, turns = pre ++ post → cost (fun t => t.reply.headerCalls) pre ≤ responses pre
  body : ∀ pre post, turns = pre ++ post → cost (fun t => t.reply.bodyCalls) pre ≤ responses pre
  converted : ∀ pre t post ctx, turns = pre ++ t :: post →
    .executeHttpResponse ctx ∈ t.reply.calls →
      ∃ resp, ctx.responseHeader = some resp ∧ latestResponse (pre ++ [t]) = some resp
  once : ∀ pre t mid post, turns = pre ++ t :: (mid ++ post) → responses mid = 0 →
    cost (fun t => t.reply.headerCalls) (t :: mid) ≤ 1

/-- The response `execute_http_response` may still be invoked on. -/
def StreamState.pendingResponse (s : StreamState K) : Option (Response K) :=
  if s.responseFiltersExecuted then none else s.response

def heldHeader (s : StreamState K) : Nat := if s.pendingResponse.isSome then 1 else 0

def heldBody (s : StreamState K) : Nat := if s.response.isSome then 1 else 0

theorem pendingResponse_eq (hx : s.responseFiltersExecuted = false) :
    s.pendingResponse = s.response := by
  simp [StreamState.pendingResponse, hx]

theorem pendingResponse_of_taken (h : s.response = none) : s.pendingResponse = none := by
  simp [StreamState.pendingResponse, h]

theorem heldHeader_of_pending (hx : s.responseFiltersExecuted = false)
    (hp : s.response = some resp) : heldHeader s = 1 := by
  simp [heldHeader, pendingResponse_eq hx, hp]

theorem heldBody_of_some (hp : s.response = some resp) : heldBody s = 1 := by
  simp [heldBody, hp]

/-- A count of hook calls, and what a state holds to pay for them. -/
structure Tally (p : FilterPipeline K) (count : Outcome K → Nat) (held : StreamState K → Nat) :
    Prop where
  held_le : ∀ s, held s ≤ 1
  silent : ∀ replies, count ⟨replies, []⟩ = 0
  keeps : ∀ s s', s'.response = s.response →
    s'.responseFiltersExecuted = s.responseFiltersExecuted → held s' = held s
  request : ∀ s o s', RequestRun p s o s' → count o = 0
  header : ∀ s o s', HeaderRun p s o s' → count o ≤ 1
  header_ok : ∀ s o s' replies, HeaderRun p s o s' → o.replies = .ok replies →
    count o + held s' ≤ 1
  response : ∀ s o s', ResponseRun p s o s' → count o ≤ held s
  response_ok : ∀ s o s' replies, ResponseRun p s o s' → o.replies = .ok replies → held s' = 0

theorem exists_replies_of_goes (h : (server p).fails o = false) :
    ∃ replies, o.replies = .ok replies := by
  cases hr : o.replies with
  | error st => simp [server_fails_of_status hr] at h
  | ok replies => exact ⟨replies, rfl⟩

/-- What a message may spend, and leave when it is answered. -/
def Within (count : Outcome K → Nat) (held : StreamState K → Nat) (allowed : Nat) (o : Outcome K)
    (s' : StreamState K) : Prop :=
  count o ≤ allowed ∧ ∀ replies, o.replies = .ok replies → count o + held s' ≤ allowed

section Tally
variable {count : Outcome K → Nat} {held : StreamState K → Nat} {n : Nat}

theorem Within.mono (h : Within count held n o s') {n' : Nat} (hn : n ≤ n') :
    Within count held n' o s' :=
  ⟨Nat.le_trans h.1 hn, fun replies hok => Nat.le_trans (h.2 replies hok) hn⟩

theorem Tally.unmoved (h : Tally p count held) (hsame : held s' = held s)
    (replies : Except Status (List ProcessingResponse)) :
    Within count held (held s) ⟨replies, []⟩ s' := by
  have hsilent := h.silent replies
  exact ⟨by omega, fun _ _ => by omega⟩

theorem Tally.requestRun (h : Tally p count held) (hrun : RequestRun p s o s') :
    Within count held (held s) o s' := by
  obtain ⟨-, hp, -, hx⟩ := hrun.frame
  have hsame := h.keeps s s' hp hx
  have hcount := h.request s o s' hrun
  exact ⟨by omega, fun _ _ => by omega⟩

theorem Tally.responseRun (h : Tally p count held) (hrun : ResponseRun p s o s') :
    Within count held (held s) o s' := by
  have hcount := h.response s o s' hrun
  refine ⟨hcount, fun replies hok => ?_⟩
  have hspent := h.response_ok s o s' replies hrun hok
  omega

theorem Tally.setBody (h : Tally p count held) {b : Utf8.Bytes} :
    held (s.setBody side b) = held s := by
  cases side <;> exact h.keeps _ _ rfl rfl

theorem Tally.setRequest (h : Tally p count held) {request : Request K} :
    held (s.setRequest request) = held s := h.keeps _ _ rfl rfl

/-- What a message allows: response headers one call, any other message what the state held. -/
def allowance (held : StreamState K → Nat) (s : StreamState K) (m : Message) : Nat :=
  if m.isResponseHeaders then 1 else held s

@[simp] theorem allowance_bodyMessage {b : HttpBody} :
    allowance held s (bodyMessage side b) = held s := by
  cases side <;> rfl

@[simp] theorem allowance_trailersMessage {t : HttpTrailers} :
    allowance held s (trailersMessage side t) = held s := by
  cases side <;> rfl

theorem Tally.handleRun (h : Tally p count held) (hrun : HandleRun p s m o s') :
    Within count held (allowance held s m) o s' := by
  cases hrun with
  | requestOpened he => exact h.unmoved h.setRequest _
  | requestEnded he hrun =>
    have hwithin := h.requestRun hrun
    rw [h.setRequest] at hwithin
    exact hwithin
  | responseOpened he hrun =>
    exact ⟨h.header _ o s' hrun, fun replies => h.header_ok _ o s' replies hrun⟩
  | responseEnded he hrun => exact (h.responseRun hrun).mono (h.held_le _)
  | chunkRefused side hover =>
    rw [allowance_bodyMessage]
    exact h.unmoved rfl _
  | chunkKept side he =>
    rw [allowance_bodyMessage]
    exact h.unmoved h.setBody _
  | bodyEnded side hcap he hrun =>
    rw [allowance_bodyMessage]
    cases hrun with
    | request hrun => simpa only [h.setBody] using h.requestRun hrun
    | response hrun => simpa only [h.setBody] using h.responseRun hrun
  | trailers side t =>
    rw [allowance_trailersMessage]
    exact h.unmoved rfl _

theorem Tally.paid (h : Tally p count held) :
    (server p).Paid (fun t => count t.reply) held Message.isResponseHeaders 1 where
  held_le := h.held_le
  turn s m := (h.handleRun (handle_run p s m)).1
  goes s m hgoes := by
    obtain ⟨replies, hok⟩ := exists_replies_of_goes hgoes
    exact (h.handleRun (handle_run p s m)).2 replies hok

end Tally

theorem BodyRun.headerCalls {res : Except Status (HttpFilterContext K × Option ImmediateResponse)}
    (h : BodyRun p side ctx s res events s') :
    (callsOf events).countP HookCall.isExecuteHttpResponse = 0 := by
  rw [List.countP_eq_length_filter, h.no_executeHttpResponse]
  rfl

/-- The response body hook is invoked at most once, and only on the response side. -/
theorem BodyRun.bodyCalls {res : Except Status (HttpFilterContext K × Option ImmediateResponse)}
    (h : BodyRun p side ctx s res events s') :
    (callsOf events).countP HookCall.isExecuteHttpResponseBody ≤
      if side = .response then 1 else 0 := by
  rw [h.calls]
  split
  · exact Nat.zero_le _
  · cases side <;> exact Nat.le_refl _

theorem BodyRun.taken {res : Except Status (HttpFilterContext K × Option ImmediateResponse)}
    (h : BodyRun p .response ctx s.takeResponse res events s') : s'.response = none := by
  obtain ⟨b, rfl⟩ := h.exists_setBody
  rfl

theorem HeaderHook.headerCalls (h : HeaderHook p s ctx ctx' first) (hp : s.response = some resp) :
    (callsOf first).countP HookCall.isExecuteHttpResponse ≤ heldHeader s := by
  cases h with
  | ran hx hc =>
    rw [heldHeader_of_pending hx hp]
    exact Nat.le_refl 1
  | skipped hx => exact Nat.zero_le _

theorem HeaderHook.bodyCalls (h : HeaderHook p s ctx ctx' first) :
    (callsOf first).countP HookCall.isExecuteHttpResponseBody = 0 := by
  cases h <;> rfl

/-- The end of a response takes the response away. -/
theorem ResponseRun.taken {replies : List ProcessingResponse} (h : ResponseRun p s o s')
    (hok : o.replies = .ok replies) : s'.response = none := by
  cases h with
  | noRequest hq | noResponse hq hp | failed hq hp hx he => cases hok
  | rejected hq hp hx hr => rfl
  | bodyFailed hq hp hf hb | bodyRejected hq hp hf hb | done hq hp hf hb => exact hb.taken

theorem headerTally (p : FilterPipeline K) : Tally p Outcome.headerCalls heldHeader where
  held_le s := by
    rw [heldHeader]
    split <;> omega
  silent replies := rfl
  keeps s s' hp hx := by
    have hsame : s'.pendingResponse = s.pendingResponse := by
      rw [StreamState.pendingResponse, StreamState.pendingResponse, hp, hx]
    rw [heldHeader, heldHeader, hsame]
  request s o s' h := by
    cases h with
    | noRequest hq | failed hq he | rejected hq he => rfl
    | bodyFailed hq hc hb | bodyRejected hq hc hb | done hq hc hb => exact hb.headerCalls
  header s o s' h := by
    cases h with
    | noRequest hq | noResponse hq hp => exact Nat.zero_le 1
    | failed hq hp he | rejected hq hp he | done hq hp he => exact Nat.le_refl 1
  header_ok s o s' replies h hok := by
    cases h with
    | noRequest hq | noResponse hq hp =>
      rw [Outcome.headerCalls, heldHeader]
      split <;> exact Nat.le_of_ble_eq_true rfl
    | failed hq hp he | rejected hq hp he => cases hok
    | done hq hp he => exact Nat.le_refl 1
  response s o s' h := by
    cases h with
    | noRequest hq | noResponse hq hp => exact Nat.zero_le _
    | failed hq hp hx he | rejected hq hp hx he =>
      rw [heldHeader_of_pending hx hp]
      exact Nat.le_refl 1
    | bodyFailed hq hp hf hb | bodyRejected hq hp hf hb | done hq hp hf hb =>
      rw [Outcome.headerCalls, calls_mk, callsOf_append, List.countP_append, hb.headerCalls]
      exact hf.headerCalls hp
  response_ok s o s' replies h hok := by
    simp [heldHeader, pendingResponse_of_taken (h.taken hok)]

theorem bodyTally (p : FilterPipeline K) : Tally p Outcome.bodyCalls heldBody where
  held_le s := by
    rw [heldBody]
    split <;> omega
  silent replies := rfl
  keeps s s' hp hx := by simp only [heldBody, hp]
  request s o s' h := by
    cases h with
    | noRequest hq | failed hq he | rejected hq he => rfl
    | bodyFailed hq hc hb | bodyRejected hq hc hb | done hq hc hb =>
      exact Nat.le_zero.mp hb.bodyCalls
  header s o s' h := by
    cases h <;> exact Nat.zero_le 1
  header_ok s o s' replies h hok := by
    have hnone : o.bodyCalls = 0 := by
      cases h <;> rfl
    rw [hnone, heldBody]
    split <;> omega
  response s o s' h := by
    cases h with
    | noRequest hq | noResponse hq hp | failed hq hp hx he | rejected hq hp hx he =>
      exact Nat.zero_le _
    | bodyFailed hq hp hf hb | bodyRejected hq hp hf hb | done hq hp hf hb =>
      rw [Outcome.bodyCalls, calls_mk, callsOf_append, List.countP_append, hf.bodyCalls,
        heldBody_of_some hp]
      have hbody := hb.bodyCalls
      simpa using hbody
  response_ok s o s' replies h hok := by
    simp [heldBody, h.taken hok]

/-- The response pending before a message, or the one the message brings. -/
def broughtOrPending (s : StreamState K) (m : Message) : Option (Response K) :=
  (convertedBy K m).or s.pendingResponse

@[simp] theorem setBody_pendingResponse {b : Utf8.Bytes} :
    (s.setBody side b).pendingResponse = s.pendingResponse := by
  cases side <;> rfl

theorem broughtOrPending_bodyMessage {b : HttpBody} :
    broughtOrPending s (bodyMessage side b) = s.pendingResponse := by
  cases side <;> rfl

theorem response_of_pending (h : s.pendingResponse = some resp) : s.response = some resp := by
  rw [StreamState.pendingResponse] at h
  split at h
  · cases h
  · exact h

theorem RequestRun.pending (h : RequestRun p s o s') : s'.pendingResponse = s.pendingResponse := by
  obtain ⟨-, hp, -, hx⟩ := h.frame
  rw [StreamState.pendingResponse, StreamState.pendingResponse, hp, hx]

theorem RequestRun.not_lends (h : RequestRun p s o s') : .executeHttpResponse ctx ∉ o.calls := by
  intro hmem
  obtain ⟨request, -, hc | hc⟩ := h.mem_calls hmem <;> cases hc

theorem ResponseRun.lends (h : ResponseRun p s o s') (hmem : .executeHttpResponse ctx ∈ o.calls) :
    ∃ resp, ctx.responseHeader = some resp ∧ s.pendingResponse = some resp := by
  obtain ⟨request, resp, -, hp, ⟨hx, hc⟩ | ⟨ctx', hc⟩⟩ := h.mem_calls hmem
  · cases hc
    exact ⟨resp, rfl, (pendingResponse_eq hx).trans hp⟩
  · cases hc

theorem HeaderRun.lends (h : HeaderRun p s o s') (hmem : .executeHttpResponse ctx ∈ o.calls) :
    ∃ resp, ctx.responseHeader = some resp ∧ s.response = some resp := by
  obtain ⟨request, resp, -, hp, hc⟩ := h.mem_calls hmem
  cases hc
  exact ⟨resp, rfl, hp⟩

theorem SideRun.lends (h : SideRun p s side o s') (hmem : .executeHttpResponse ctx ∈ o.calls) :
    ∃ resp, ctx.responseHeader = some resp ∧ s.pendingResponse = some resp := by
  cases h with
  | request h => exact (h.not_lends hmem).elim
  | response h => exact h.lends hmem

theorem HandleRun.lends (h : HandleRun p s m o s') (hmem : .executeHttpResponse ctx ∈ o.calls) :
    ∃ resp, ctx.responseHeader = some resp ∧ broughtOrPending s m = some resp := by
  cases h with
  | requestOpened he | chunkRefused side hover | chunkKept side he | trailers side t => cases hmem
  | requestEnded he hrun => exact (hrun.not_lends hmem).elim
  | responseOpened he hrun => exact hrun.lends hmem
  | responseEnded he hrun =>
    obtain ⟨resp, hlent, hpending⟩ := hrun.lends hmem
    exact ⟨resp, hlent, response_of_pending hpending⟩
  | bodyEnded side hcap he hrun =>
    obtain ⟨resp, hlent, hpending⟩ := hrun.lends hmem
    rw [setBody_pendingResponse] at hpending
    exact ⟨resp, hlent, broughtOrPending_bodyMessage.trans hpending⟩

theorem HeaderRun.pending {replies : List ProcessingResponse} (h : HeaderRun p s o s')
    (hok : o.replies = .ok replies) :
    s'.pendingResponse = none ∨ s'.pendingResponse = s.response := by
  cases h with
  | noRequest hq | noResponse hq hp =>
    rw [StreamState.pendingResponse]
    split
    · exact Or.inl rfl
    · exact Or.inr rfl
  | failed hq hp he | rejected hq hp he => cases hok
  | done hq hp he => exact Or.inl rfl

/-- A message that is answered leaves nothing pending but what was pending or what it brought. -/
theorem HandleRun.pending {replies : List ProcessingResponse} (h : HandleRun p s m o s')
    (hok : o.replies = .ok replies) :
    s'.pendingResponse = none ∨ s'.pendingResponse = broughtOrPending s m := by
  cases h with
  | requestOpened he => exact Or.inr rfl
  | requestEnded he hrun => exact Or.inr hrun.pending
  | responseOpened he hrun => exact hrun.pending hok
  | responseEnded he hrun => exact Or.inl (pendingResponse_of_taken (hrun.taken hok))
  | chunkRefused side hover => cases hok
  | chunkKept side he =>
    exact Or.inr (setBody_pendingResponse.trans broughtOrPending_bodyMessage.symm)
  | bodyEnded side hcap he hrun =>
    cases hrun with
    | request hrun => exact Or.inr hrun.pending
    | response hrun => exact Or.inl (pendingResponse_of_taken (hrun.taken hok))
  | trailers side t => cases side <;> exact Or.inr rfl

theorem latestResponse_append_singleton {pre : List (Turn K)} {t : Turn K} :
    latestResponse (pre ++ [t]) = (convertedBy K t.message).or (latestResponse pre) := by
  simp [latestResponse]

/-- What is pending, if anything, was converted from the latest response headers. -/
def PendingLatest (pre : List (Turn K)) (s : StreamState K) : Prop :=
  s.pendingResponse = none ∨ s.pendingResponse = latestResponse pre

theorem PendingLatest.brought {pre : List (Turn K)} {t : Turn K} (h : PendingLatest pre t.before) :
    broughtOrPending t.before t.message = none ∨
      broughtOrPending t.before t.message = latestResponse (pre ++ [t]) := by
  rw [latestResponse_append_singleton, broughtOrPending]
  cases convertedBy K t.message with
  | some resp => exact Or.inr rfl
  | none =>
    rw [Option.none_or, Option.none_or]
    exact h

theorem run_pendingLatest {pre post : List (Turn K)} {t : Turn K}
    (hrun : (server p).run StreamState.new ms = pre ++ t :: post) :
    PendingLatest pre t.before ∧ t = (server p).turn t.before t.message := by
  refine Machine.run_history (P := PendingLatest) (Or.inl rfl) ?_ hrun
  intro pre u m hpending hgoes
  obtain ⟨replies, hok⟩ := exists_replies_of_goes hgoes
  have hbrought := PendingLatest.brought (t := (server p).turn u m) hpending
  rcases (handle_run p u m).pending hok with hnone | hkept
  · exact Or.inl hnone
  · have hafter : ((server p).turn u m).after.pendingResponse = broughtOrPending u m := hkept
    rw [PendingLatest, hafter]
    exact hbrought

theorem run_lends {pre post : List (Turn K)} {t : Turn K}
    (hrun : (server p).run StreamState.new ms = pre ++ t :: post)
    (hmem : .executeHttpResponse ctx ∈ t.reply.calls) :
    ∃ resp, ctx.responseHeader = some resp ∧ latestResponse (pre ++ [t]) = some resp := by
  obtain ⟨hpending, ht⟩ := run_pendingLatest hrun
  obtain ⟨resp, hlent, hsource⟩ := (turn_run ht).lends hmem
  refine ⟨resp, hlent, ?_⟩
  rcases hpending.brought with hnone | hlatest
  · cases hnone.symm.trans hsource
  · exact hlatest.symm.trans hsource

/-- On every stream, whatever the order of its messages, the response filters run at most once per
response. -/
theorem response_filters_run_once (p : FilterPipeline K) (ms : List Message) :
    RunsOnce ((server p).run StreamState.new ms) where
  header pre post hrun := by
    have htotal := (headerTally p).paid.total hrun
    have hfresh : heldHeader (StreamState.new : StreamState K) = 0 := rfl
    rw [hfresh, Nat.zero_add, Nat.one_mul] at htotal
    exact htotal
  body pre post hrun := by
    have htotal := (bodyTally p).paid.total hrun
    have hfresh : heldBody (StreamState.new : StreamState K) = 0 := rfl
    rw [hfresh, Nat.zero_add, Nat.one_mul] at htotal
    exact htotal
  converted pre t post ctx hrun hmem := run_lends hrun hmem
  once pre t mid post hrun hmid := by
    refine (headerTally p).paid.stretch hrun ?_
    simpa [responses, List.countP_eq_zero] using hmid

end ExtProc
