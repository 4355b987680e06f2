import ExtProc.Budget
import ExtProc.Rejection

/-! The rejection counter against the immediate responses the handlers return. -/
namespace ExtProc

open Utf8 (Bytes)

variable {K : Crates} {p : FilterPipeline K} {s s' : StreamState K} {m : Message} {side : Side}
  {ctx ctx' : HttpFilterContext K} {o : Outcome K} {request : Request K} {resp : Response K}
  {events first : List (Event K)} {b buf : Bytes}

def Event.isRecord : Event K → Bool
  | .recordImmediateResponse => true
  | .hook _ => false

/-- The calls to `record_immediate_response`. -/
def Outcome.recorded (o : Outcome K) : Nat := o.log.countP Event.isRecord

def ProcessingResponse.isImmediate (reply : ProcessingResponse) : Bool :=
  match reply.response with
  | some (.immediateResponse _) => true
  | _ => false

def Outcome.immediates (o : Outcome K) : Nat := o.sent.countP ProcessingResponse.isImmediate

/-- At every point, as many rejections were recorded as were returned. -/
def CountsRejections (turns : List (Turn K)) : Prop :=
  ∀ pre post, turns = pre ++ post →
    Machine.cost (fun t => t.reply.recorded) pre = Machine.cost (fun t => t.reply.immediates) pre

/-- The context the body hook of a side starts with, when the hook ahead of it let it run. -/
inductive BodyHookDue (p : FilterPipeline K) (s : StreamState K) :
    Side → HttpFilterContext K → Prop
  | request {request : Request K} (hq : s.request = some request)
      (hc : (p.executeHttpRequest (buildFilterContext request)).result = .ok .«continue») :
      BodyHookDue p s .request (afterRequestHook p request)
  | response {request : Request K} {resp : Response K} {ctx : HttpFilterContext K}
      {first : List (Event K)} (hq : s.request = some request) (hp : s.response = some resp)
      (hf : HeaderHook p s (responseCtx s request resp) ctx first) : BodyHookDue p s .response ctx

/-- There is a body, and the hook rejects it. -/
def BodyHookRejects (p : FilterPipeline K) (side : Side) (ctx : HttpFilterContext K) (b : Bytes) :
    Prop :=
  b ≠ [] ∧ ∃ r, (p.executeBody side ctx (some b) true).result = .ok (.reject r)

/-- The end of a side reaches the body hook, and the hook rejects. -/
def RejectsBody (p : FilterPipeline K) (s : StreamState K) (side : Side) : Prop :=
  ∃ ctx, BodyHookDue p s side ctx ∧ BodyHookRejects p side ctx (s.body side)

/-- The last chunk of a body within the cap that the body hook rejects. -/
def RejectsLastChunk (p : FilterPipeline K) (s : StreamState K) (side : Side) (b : HttpBody) :
    Prop :=
  b.endOfStream = true ∧ (s.body side).length + b.body.length ≤ maxBodyAccumulation ∧
    RejectsBody p (s.setBody side (s.body side ++ b.body)) side

/-- `execute_http_response` rejects at header time. -/
def RejectsHeaders (p : FilterPipeline K) (s : StreamState K) : Prop :=
  ∃ request resp r, s.request = some request ∧ s.response = some resp ∧
    (p.executeHttpResponse (responseCtx s request resp)).result = .ok (.reject r)

/-- A body hook rejects, which is not recorded, or response headers with a body to come are
rejected, which is recorded and returned as a status. -/
def Miscounts (p : FilterPipeline K) (s : StreamState K) : Message → Prop
  | .requestHeaders h => h.endOfStream = true ∧
      RejectsBody p (s.setRequest (envoyHeadersToRequest K (extractHeaderList h))) .request
  | .requestBody b => RejectsLastChunk p s .request b
  | .responseHeaders h =>
      if h.endOfStream then
        RejectsBody p (s.setResponse (envoyHeadersToResponse K (extractHeaderList h))) .response
      else RejectsHeaders p (s.setResponse (envoyHeadersToResponse K (extractHeaderList h)))
  | .responseBody b => RejectsLastChunk p s .response b
  | .requestTrailers _ | .responseTrailers _ => False

@[simp] theorem miscounts_bodyMessage {b : HttpBody} :
    Miscounts p s (bodyMessage side b) ↔ RejectsLastChunk p s side b := by
  cases side <;> rfl

@[simp] theorem miscounts_trailersMessage {t : HttpTrailers} :
    Miscounts p s (trailersMessage side t) ↔ False := by
  cases side <;> rfl

theorem BodyHookDue.unique (h : BodyHookDue p s side ctx) (h' : BodyHookDue p s side ctx') :
    ctx = ctx' := by
  cases h with
  | request hq hc =>
    cases h' with
    | request hq' hc' =>
      obtain rfl := Option.some.inj (hq.symm.trans hq')
      rfl
  | response hq hp hf =>
    cases h' with
    | response hq' hp' hf' =>
      obtain rfl := Option.some.inj (hq.symm.trans hq')
      obtain rfl := Option.some.inj (hp.symm.trans hp')
      exact (hf.unique hf').1

theorem BodyHookDue.rejectsBody_iff (h : BodyHookDue p s side ctx) :
    RejectsBody p s side ↔ BodyHookRejects p side ctx (s.body side) := by
  constructor
  · rintro ⟨ctx', h', hrejects⟩
    obtain rfl := h.unique h'
    exact hrejects
  · intro hrejects
    exact ⟨ctx, h, hrejects⟩

theorem not_rejectsBody (h : ∀ ctx, ¬ BodyHookDue p s side ctx) : ¬ RejectsBody p s side := by
  rintro ⟨ctx, hdue, -⟩
  exact h ctx hdue

theorem BodyRun.rejects_iff {res : Except Status (HttpFilterContext K × Option ImmediateResponse)}
    (h : BodyRun p side ctx s res events s') :
    BodyHookRejects p side ctx (s.body side) ↔ ∃ ctx' imm, res = .ok (ctx', some imm) := by
  cases h with
  | skipped hb =>
    refine iff_of_false (fun hrejects => hrejects.1 hb) ?_
    simp
  | failed hb he =>
    rw [bodyHook] at he
    simp [BodyHookRejects, he]
  | rejected hb hr =>
    rw [bodyHook] at hr
    exact iff_of_true ⟨hb, _, hr⟩ ⟨_, _, rfl⟩
  | continued hb hc =>
    rw [bodyHook] at hc
    simp [BodyHookRejects, hc]

/-- The body filters record nothing. -/
theorem BodyRun.recorded {res : Except Status (HttpFilterContext K × Option ImmediateResponse)}
    (h : BodyRun p side ctx s res events s') : events.countP Event.isRecord = 0 := by
  cases h <;> rfl

theorem HeaderHook.recorded (h : HeaderHook p s ctx ctx' first) :
    first.countP Event.isRecord = 0 := by
  cases h <;> rfl

theorem immediates_requestReplies {log : List (Event K)} :
    Outcome.immediates ⟨.ok (requestReplies ctx buf), log⟩ = 0 := by
  cases buf <;> rfl

theorem immediates_responseReplies {mutation : Option HeaderMutation} {log : List (Event K)} :
    Outcome.immediates ⟨.ok (responseReplies mutation buf), log⟩ = 0 := by
  cases buf <;> rfl

theorem recorded_mk {replies : Except Status (List ProcessingResponse)} {log : List (Event K)} :
    Outcome.recorded ⟨replies, log⟩ = log.countP Event.isRecord := rfl

theorem RequestRun.counts_iff (h : RequestRun p s o s') :
    o.recorded = o.immediates ↔ ¬ RejectsBody p s .request := by
  cases h with
  | noRequest hq =>
    refine iff_of_true rfl (not_rejectsBody ?_)
    intro ctx hdue
    cases hdue with
    | request hq' hc => simp [hq] at hq'
  | failed hq hr | rejected hq hr =>
    refine iff_of_true rfl (not_rejectsBody ?_)
    intro ctx hdue
    cases hdue with
    | request hq' hc =>
      obtain rfl := Option.some.inj (hq.symm.trans hq')
      simp [hr] at hc
  | bodyFailed hq hc hb =>
    have hiff := (BodyHookDue.request hq hc).rejectsBody_iff.trans hb.rejects_iff
    exact iff_of_true hb.recorded (by simp [hiff])
  | bodyRejected hq hc hb =>
    have hiff := (BodyHookDue.request hq hc).rejectsBody_iff.trans hb.rejects_iff
    refine iff_of_false ?_ (by simp [hiff])
    intro hcounts
    cases hb.recorded.symm.trans hcounts
  | done hq hc hb =>
    have hiff := (BodyHookDue.request hq hc).rejectsBody_iff.trans hb.rejects_iff
    exact iff_of_true (hb.recorded.trans immediates_requestReplies.symm) (by simp [hiff])

/-- Behind a header hook that continued or was skipped, the response pipeline records nothing. -/
theorem recorded_response {replies : Except Status (List ProcessingResponse)}
    {res : Except Status (HttpFilterContext K × Option ImmediateResponse)} {t : StreamState K}
    (hf : HeaderHook p s ctx ctx' first) (hb : BodyRun p side ctx' t res events s') :
    Outcome.recorded ⟨replies, first ++ events⟩ = 0 := by
  rw [recorded_mk, List.countP_append, hf.recorded, hb.recorded]

theorem ResponseRun.counts_iff (h : ResponseRun p s o s') :
    o.recorded = o.immediates ↔ ¬ RejectsBody p s .response := by
  cases h with
  | noRequest hq =>
    refine iff_of_true rfl (not_rejectsBody ?_)
    intro ctx hdue
    cases hdue with
    | response hq' hp' hf => simp [hq] at hq'
  | noResponse hq hp =>
    refine iff_of_true rfl (not_rejectsBody ?_)
    intro ctx hdue
    cases hdue with
    | response hq' hp' hf => simp [hp] at hp'
  | failed hq hp hx hr | rejected hq hp hx hr =>
    refine iff_of_true rfl (not_rejectsBody ?_)
    intro ctx hdue
    cases hdue with
    | response hq' hp' hf =>
      obtain rfl := Option.some.inj (hq.symm.trans hq')
      obtain rfl := Option.some.inj (hp.symm.trans hp')
      cases hf with
      | ran hx' hc => simp [hr] at hc
      | skipped hx' => simp [hx] at hx'
  | bodyFailed hq hp hf hb =>
    have hiff := (BodyHookDue.response hq hp hf).rejectsBody_iff.trans hb.rejects_iff
    exact iff_of_true (recorded_response hf hb) (by simp [hiff])
  | bodyRejected hq hp hf hb =>
    have hiff := (BodyHookDue.response hq hp hf).rejectsBody_iff.trans hb.rejects_iff
    refine iff_of_false ?_ (by simp [hiff])
    intro hcounts
    cases (recorded_response hf hb).symm.trans hcounts
  | done hq hp hf hb =>
    have hiff := (BodyHookDue.response hq hp hf).rejectsBody_iff.trans hb.rejects_iff
    exact iff_of_true ((recorded_response hf hb).trans immediates_responseReplies.symm)
      (by simp [hiff])

theorem HeaderRun.counts_iff (h : HeaderRun p s o s') :
    o.recorded = o.immediates ↔ ¬ RejectsHeaders p s := by
  cases h with
  | noRequest hq =>
    refine iff_of_true rfl ?_
    rintro ⟨request, resp, r, hq', -⟩
    simp [hq] at hq'
  | noResponse hq hp =>
    refine iff_of_true rfl ?_
    rintro ⟨request, resp, r, -, hp', -⟩
    simp [hp] at hp'
  | failed hq hp hc | done hq hp hc =>
    refine iff_of_true rfl ?_
    rintro ⟨request, resp, r, hq', hp', hr⟩
    obtain rfl := Option.some.inj (hq.symm.trans hq')
    obtain rfl := Option.some.inj (hp.symm.trans hp')
    simp [hc] at hr
  | rejected hq hp hr =>
    refine iff_of_false ?_ (not_not_intro ⟨_, _, _, hq, hp, hr⟩)
    intro hcounts
    cases hcounts

theorem SideRun.counts_iff (h : SideRun p s side o s') :
    o.recorded = o.immediates ↔ ¬ RejectsBody p s side := by
  cases h with
  | request h => exact h.counts_iff
  | response h => exact h.counts_iff

/-- One message is counted right exactly when its step is none of those that miscount. -/
theorem HandleRun.counts_iff (h : HandleRun p s m o s') :
    o.recorded = o.immediates ↔ ¬ Miscounts p s m := by
  cases h with
  | requestOpened he => exact iff_of_true rfl (by simp [Miscounts, he])
  | requestEnded he hrun => simpa [Miscounts, he] using hrun.counts_iff
  | responseOpened he hrun => simpa [Miscounts, he] using hrun.counts_iff
  | responseEnded he hrun => simpa [Miscounts, he] using hrun.counts_iff
  | chunkRefused side hover =>
    refine iff_of_true rfl ?_
    rw [miscounts_bodyMessage]
    rintro ⟨-, hcap, -⟩
    omega
  | chunkKept side he => exact iff_of_true rfl (by simp [RejectsLastChunk, he])
  | bodyEnded side hcap he hrun => simpa [RejectsLastChunk, he, hcap] using hrun.counts_iff
  | trailers side t => exact iff_of_true (by cases side <;> rfl) (by simp)

/-- On every stream, the counter follows the immediate responses exactly when no step rejects a
body, or response headers ahead of one. -/
theorem rejections_counted_iff (p : FilterPipeline K) (ms : List Message) :
    CountsRejections ((server p).run StreamState.new ms) ↔
      ∀ t ∈ (server p).run StreamState.new ms, ¬ Miscounts p t.before t.message := by
  refine Machine.cost_eq_on_prefixes_iff.trans (forall₂_congr fun t ht => ?_)
  exact (turn_run (Machine.turn_of_mem_run ht)).counts_iff

section Uncounted

def refuseBody : FilterPipeline httpCrates :=
  { passAll with
    executeHttpRequestBody := fun ctx body _ => ⟨ctx, body, .ok (.reject forbidden)⟩ }

/-- A refused body is answered and not counted; refused response headers, with a body to come, are
counted and not answered. -/
theorem rejection_miscounted :
    ¬ CountsRejections ((server refuseBody).run .new
        [.requestHeaders ⟨none, false⟩, .requestBody ⟨[1], true⟩]) ∧
      ¬ CountsRejections ((server refuseResponse).run .new
        [.requestHeaders ⟨none, true⟩, .responseHeaders ⟨none, false⟩]) := by
  constructor
  · intro hcounts
    cases hcounts _ [] (List.append_nil _).symm
  · intro hcounts
    cases hcounts _ [] (List.append_nil _).symm

end Uncounted

end ExtProc
