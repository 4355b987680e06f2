import ExtProc.Failures
import ExtProc.Forwarding
import ExtProc.RequestMutations
import ExtProc.Snapshot

/-! Filters that change nothing: what Envoy forwards then is what it had. -/
namespace ExtProc

open Utf8 (Bytes)

variable {K : Crates} {p : FilterPipeline K} {s s' : StreamState K} {m : Message} {side : Side}
  {ctx ctx' : HttpFilterContext K} {o : Outcome K} {resp : Response K} {b buf : Bytes}
  {events first : List (Event K)} {replies : List ProcessingResponse} {reply : ProcessingResponse}
  {mutation : Option HeaderMutation}

/-- Filters that look at messages and may reject them, but change no header, path or body. -/
structure FilterPipeline.ReadOnly (p : FilterPipeline K) : Prop where
  extraHeaders : ∀ ctx,
    (p.executeHttpRequest ctx).ctx.extraRequestHeaders = ctx.extraRequestHeaders
  path : ∀ ctx, (p.executeHttpRequest ctx).ctx.rewrittenPath = ctx.rewrittenPath
  bodyExtraHeaders : ∀ ctx body eos,
    (p.executeHttpRequestBody ctx body eos).ctx.extraRequestHeaders = ctx.extraRequestHeaders
  bodyPath : ∀ ctx body eos,
    (p.executeHttpRequestBody ctx body eos).ctx.rewrittenPath = ctx.rewrittenPath
  response : ∀ ctx resp, ctx.responseHeader = some resp →
    (p.executeHttpResponse ctx).ctx.responseHeader = some resp ∧
      (p.executeHttpResponse ctx).lent = resp
  bodyResponse : ∀ ctx body eos,
    (p.executeHttpResponseBody ctx body eos).ctx.responseHeader = ctx.responseHeader
  body : ∀ side ctx body eos, (p.executeBody side ctx body eos).body = body

/-- All values of a name read alike. -/
def OneText (K : Crates) (headers : HeaderMap K) : Prop :=
  ∀ n, ∀ v ∈ headers.getAll n, ∀ w ∈ headers.getAll n, textOf K v = textOf K w

/-- The bytes that came for a side. -/
def bytesOf (side : Side) (ms : List Message) : Bytes := ms.flatMap (chunkOf side)

/-- A rejection, or a reply on which Envoy forwards the body it has, and changes no header exactly
when the condition holds. -/
def PassesOn (b : Bytes) (condition : Prop) (reply : ProcessingResponse) : Prop :=
  (∃ imm, reply = Reply.immediate imm) ∨
    forwardedBody b reply = b ∧ (reply.headerMutation = none ↔ condition)

/-- The response that the reply to a message is diffed against. -/
def diffedAgainst (requested : Bool) (latest : Option (Response K)) : Message → Option (Response K)
  | .responseHeaders h =>
    if requested then some (envoyHeadersToResponse K (extractHeaderList h)) else none
  | .responseBody _ => latest
  | _ => none

theorem diff_self_eq_none_iff (hK : K.Lawful) (hctx : ctx.responseHeader = some resp) :
    collectResponseHeaderMutationsDiff ctx (captureOriginalHeaders resp) = none ↔
      OneText K resp.headers := by
  rw [diff_eq_none_iff hK hctx]
  constructor
  · rintro ⟨-, hread⟩ n
    exact lastText_eq_iff.mp (hread n)
  · intro hone
    refine ⟨fun n hn => hn, ?_⟩
    intro n
    exact lastText_eq_iff.mpr (hone n)

theorem bodyLeft_of_readOnly (hp : p.ReadOnly) {body : Option Bytes} {eos : Bool} :
    (HookCall.executeBody side ctx body eos).bodyLeft p side = some (body.getD []) := by
  have hbody := hp.body side ctx body eos
  cases side with
  | request => exact congrArg (fun b => some (Option.getD b [])) hbody
  | response => exact congrArg (fun b => some (Option.getD b [])) hbody

/-- A call that leaves a body is a call of the body hook. -/
theorem executeBody_of_bodyLeft {c : HookCall K} (h : c.bodyLeft p side = some b) :
    ∃ ctx body eos, c = .executeBody side ctx body eos := by
  cases c with
  | executeHttpRequest ctx | executeHttpResponse ctx => cases h
  | executeHttpRequestBody ctx body eos | executeHttpResponseBody ctx body eos =>
    cases side with
    | request => cases h <;> exact ⟨ctx, body, eos, rfl⟩
    | response => cases h <;> exact ⟨ctx, body, eos, rfl⟩

/-- The bytes of a message join those of its side, and no hook changes them. -/
theorem HandleRun.keeps_bytes (hp : p.ReadOnly) (h : HandleRun p s m o s')
    (hok : o.replies = .ok replies) : s'.body side = s.body side ++ chunkOf side m := by
  rw [h.buffer hok]
  cases hleft : o.bodyLeft p side with
  | none => rfl
  | some b =>
    obtain ⟨c, hc, hcleft⟩ := List.exists_of_findSome?_eq_some hleft
    obtain ⟨ctx, body, eos, rfl⟩ := executeBody_of_bodyLeft hcleft
    obtain ⟨rfl, -, -⟩ := h.givenBody ctx body eos hc
    rw [bodyLeft_of_readOnly hp] at hcleft
    exact (Option.some.inj hcleft).symm

theorem HeaderRun.keeps_response (hp : p.ReadOnly) (h : HeaderRun p (s.setResponse resp) o s')
    (hok : o.replies = .ok replies) : s'.response = some resp := by
  cases h with
  | noRequest hq => rfl
  | noResponse hq hresp => cases hresp
  | failed hq hresp he | rejected hq hresp hr => cases hok
  | done hq hresp hc =>
    cases hresp
    exact congrArg some (hp.response _ resp rfl).2

/-- The response held is the one converted last, if there is one. -/
theorem HandleRun.keeps_response (hp : p.ReadOnly) (h : HandleRun p s m o s')
    (hok : o.replies = .ok replies) :
    s'.response = none ∨ s'.response = (convertedBy K m).or s.response := by
  cases h with
  | requestOpened he => exact Or.inr rfl
  | requestEnded he hrun => exact Or.inr hrun.sameResponseSide.response
  | responseOpened he hrun => exact Or.inr (hrun.keeps_response hp hok)
  | responseEnded he hrun => exact Or.inl (hrun.taken hok)
  | chunkRefused side hover => cases hok
  | chunkKept side he => cases side <;> exact Or.inr rfl
  | bodyEnded side hcap he hrun =>
    cases hrun with
    | request hrun => exact Or.inr hrun.sameResponseSide.response
    | response hrun => exact Or.inl (hrun.taken hok)
  | trailers side t => cases side <;> exact Or.inr rfl

theorem BodyRun.keeps_body {ran : HttpFilterContext K × Option ImmediateResponse}
    (hp : p.ReadOnly) (h : BodyRun p side ctx s (.ok ran) events s') :
    s'.body side = s.body side := by
  cases h with
  | skipped hb => rfl
  | rejected hb hr | continued hb hc =>
    have hbody : (bodyHook p side ctx s).body = some (s.body side) := hp.body _ _ _ _
    rw [afterBodyHook_body, leftBody]
    exact congrArg (Option.getD · []) hbody

theorem BodyRun.keeps_mutations {ran : HttpFilterContext K × Option ImmediateResponse}
    (hp : p.ReadOnly) (h : BodyRun p .request ctx s (.ok ran) events s') :
    ran.1.extraRequestHeaders = ctx.extraRequestHeaders ∧
      ran.1.rewrittenPath = ctx.rewrittenPath := by
  cases h with
  | skipped hb => exact ⟨rfl, rfl⟩
  | rejected hb hr | continued hb hc => exact ⟨hp.bodyExtraHeaders _ _ _, hp.bodyPath _ _ _⟩

theorem BodyRun.keeps_responseHeader {ran : HttpFilterContext K × Option ImmediateResponse}
    (hp : p.ReadOnly) (h : BodyRun p .response ctx s (.ok ran) events s') :
    ran.1.responseHeader = ctx.responseHeader := by
  cases h with
  | skipped hb => rfl
  | rejected hb hr | continued hb hc => exact hp.bodyResponse _ _ _

theorem passesOn_requestReplies (hmutation : collectRequestHeaderMutations ctx = none)
    (hreply : reply ∈ requestReplies ctx buf) : PassesOn buf True reply := by
  cases buf with
  | nil =>
    obtain rfl := List.mem_singleton.mp hreply
    exact Or.inr ⟨rfl, iff_true_intro hmutation⟩
  | cons x xs =>
    obtain rfl := List.mem_singleton.mp hreply
    exact Or.inr ⟨rfl, iff_true_intro hmutation⟩

theorem passesOn_responseReplies {condition : Prop} (hmutation : mutation = none ↔ condition)
    (hreply : reply ∈ responseReplies mutation buf) : PassesOn buf condition reply := by
  cases buf with
  | nil =>
    obtain rfl := List.mem_singleton.mp hreply
    exact Or.inr ⟨rfl, hmutation⟩
  | cons x xs =>
    obtain rfl := List.mem_singleton.mp hreply
    exact Or.inr ⟨rfl, hmutation⟩

theorem RequestRun.passesOn (hp : p.ReadOnly) (h : RequestRun p s o s') (hreply : reply ∈ o.sent) :
    PassesOn s.requestBody True reply := by
  cases h with
  | noRequest hq | failed hq he | bodyFailed hq hc hb => cases hreply
  | rejected hq hr | bodyRejected hq hc hb => exact Or.inl ⟨_, List.mem_singleton.mp hreply⟩
  | @done request ctx events s' hq hc hb =>
    have hbody : s'.requestBody = s.requestBody := hb.keeps_body hp
    obtain ⟨hextra, hpath⟩ := hb.keeps_mutations hp
    have hmutation : collectRequestHeaderMutations ctx = none := by
      refine collect_eq_none_iff.mpr ⟨hextra.trans ?_, hpath.trans ?_⟩
      · exact hp.extraHeaders _
      · exact hp.path _
    rw [← hbody]
    exact passesOn_requestReplies hmutation hreply

theorem HeaderHook.keeps_responseHeader (hp : p.ReadOnly) (h : HeaderHook p s ctx ctx' first)
    (hctx : ctx.responseHeader = some resp) : ctx'.responseHeader = some resp := by
  cases h with
  | ran hx hc => exact (hp.response ctx resp hctx).1
  | skipped hx => exact hctx

theorem ResponseRun.passesOn (hK : K.Lawful) (hp : p.ReadOnly) (h : ResponseRun p s o s')
    (hreply : reply ∈ o.sent) :
    ∃ resp, s.request.isSome = true ∧ s.response = some resp ∧
      PassesOn s.responseBody (OneText K resp.headers) reply := by
  cases h with
  | noRequest hq | noResponse hq hresp | failed hq hresp hx he | bodyFailed hq hresp hf hb =>
    cases hreply
  | rejected hq hresp hx hr | bodyRejected hq hresp hf hb =>
    exact ⟨_, congrArg Option.isSome hq, hresp, Or.inl ⟨_, List.mem_singleton.mp hreply⟩⟩
  | @done request resp ctx ctx' first events s' hq hresp hf hb =>
    have hbody : s'.responseBody = s.responseBody := hb.keeps_body hp
    have hctx : ctx.responseHeader = some resp := hf.keeps_responseHeader hp rfl
    have hctx' : ctx'.responseHeader = some resp := (hb.keeps_responseHeader hp).trans hctx
    refine ⟨resp, congrArg Option.isSome hq, hresp, ?_⟩
    rw [← hbody]
    exact passesOn_responseReplies (diff_self_eq_none_iff hK hctx') hreply

theorem HeaderRun.passesOn (hK : K.Lawful) (hp : p.ReadOnly)
    (h : HeaderRun p (s.setResponse resp) o s') (hreply : reply ∈ o.sent) :
    PassesOn b (s.request.isSome → OneText K resp.headers) reply := by
  cases h with
  | noRequest hq =>
    have hnone : s.request = none := hq
    obtain rfl := List.mem_singleton.mp hreply
    exact Or.inr ⟨rfl, iff_of_true rfl (by simp [hnone])⟩
  | noResponse hq hresp => cases hresp
  | failed hq hresp he | rejected hq hresp hr => cases hreply
  | @done request _ hq hresp hc =>
    cases hresp
    have hsome : s.request.isSome = true := congrArg Option.isSome hq
    have hctx := (hp.response (responseCtx (s.setResponse resp) request resp) resp rfl).1
    obtain rfl := List.mem_singleton.mp hreply
    refine Or.inr ⟨rfl, ?_⟩
    constructor
    · intro hnone _
      exact (diff_self_eq_none_iff hK hctx).mp hnone
    · intro hone
      exact (diff_self_eq_none_iff hK hctx).mpr (hone hsome)

theorem PassesOn.congr {condition condition' : Prop} (h : PassesOn b condition reply)
    (hiff : condition ↔ condition') : PassesOn b condition' reply := by
  rw [← propext hiff]
  exact h

/-- What one message is answered with, when the filters change nothing. -/
theorem HandleRun.passesOn (hK : K.Lawful) (hp : p.ReadOnly) (h : HandleRun p s m o s')
    {latest : Option (Response K)} (hlatest : ∀ resp, s.response = some resp → latest = some resp)
    (hb : ∀ side, Closes side m → b = s.body side ++ chunkOf side m) (hreply : reply ∈ o.sent) :
    PassesOn b
      (∀ resp, diffedAgainst s.request.isSome latest m = some resp → OneText K resp.headers)
      reply := by
  cases h with
  | requestOpened he =>
    obtain rfl := List.mem_singleton.mp hreply
    refine Or.inr ⟨rfl, iff_of_true rfl ?_⟩
    intro resp hresp
    cases hresp
  | @requestEnded h o s' he hrun =>
    have hbytes : b = s.requestBody :=
      (hb .request (.headers .request he)).trans (List.append_nil _)
    rw [hbytes]
    refine (hrun.passesOn hp hreply).congr (iff_of_true trivial ?_)
    intro resp hresp
    cases hresp
  | @responseOpened h o s' he hrun =>
    refine (hrun.passesOn hK hp hreply).congr ?_
    cases hreq : s.request <;> simp [diffedAgainst]
  | @responseEnded h o s' he hrun =>
    obtain ⟨resp, hreq, hresp, hpasses⟩ := hrun.passesOn hK hp hreply
    cases hresp
    have hsome : s.request.isSome = true := hreq
    have hbytes : b = s.responseBody :=
      (hb .response (.headers .response he)).trans (List.append_nil _)
    rw [hbytes]
    refine hpasses.congr ?_
    simp [diffedAgainst, hsome]
  | chunkRefused side hover | chunkKept side he => cases hreply
  | @bodyEnded side body o s' hcap he hrun =>
    have hbytes := hb side (.body side he)
    rw [chunkOf_bodyMessage, if_pos rfl] at hbytes
    cases hrun with
    | request hrun =>
      rw [hbytes]
      refine (hrun.passesOn hp hreply).congr (iff_of_true trivial ?_)
      intro resp hresp
      cases hresp
    | response hrun =>
      obtain ⟨resp, -, hresp, hpasses⟩ := hrun.passesOn hK hp hreply
      rw [hbytes]
      refine hpasses.congr ?_
      have hsome : latest = some resp := hlatest resp hresp
      simp [diffedAgainst, bodyMessage, hsome]
  | trailers side t =>
    obtain rfl := List.mem_singleton.mp hreply
    have hnone : ∀ resp : Response K, diffedAgainst s.request.isSome latest (trailersMessage side t) =
        some resp → OneText K resp.headers := by
      intro resp hresp
      cases side <;> cases hresp
    cases side <;> exact Or.inr ⟨rfl, iff_of_true rfl hnone⟩

/-- The buffers hold the bytes that came, and the response held was converted last. -/
structure Unaltered (pre : List (Turn K)) (s : StreamState K) : Prop where
  bytes : ∀ side, s.body side = bytesOf side (pre.map Machine.Turn.message)
  response : ∀ resp, s.response = some resp → latestResponse pre = some resp

theorem bytesOf_concat {pre : List (Turn K)} {t : Turn K} :
    bytesOf side ((pre ++ [t]).map Machine.Turn.message) =
      bytesOf side (pre.map Machine.Turn.message) ++ chunkOf side t.message := by
  simp [bytesOf]

theorem Unaltered.new : Unaltered (K := K) [] .new := by
  refine ⟨?_, ?_⟩
  · intro side
    cases side <;> rfl
  · intro resp hresp
    cases hresp

theorem Unaltered.step (hp : p.ReadOnly) {pre : List (Turn K)} {t : Turn K}
    (h : Unaltered pre t.before) (hrun : HandleRun p t.before t.message t.reply t.after)
    (hok : t.reply.replies = .ok replies) : Unaltered (pre ++ [t]) t.after := by
  refine ⟨?_, ?_⟩
  · intro side
    rw [bytesOf_concat, ← h.bytes, hrun.keeps_bytes hp hok]
  · intro resp hresp
    rw [latestResponse_append_singleton]
    rcases hrun.keeps_response hp hok with hnone | hkept
    · rw [hnone] at hresp
      cases hresp
    · rw [hkept] at hresp
      cases hconverted : convertedBy K t.message with
      | some brought =>
        rw [hconverted] at hresp
        exact hresp
      | none =>
        rw [hconverted] at hresp
        exact h.response resp hresp

theorem run_unaltered (hp : p.ReadOnly) {ms : List Message} {pre post : List (Turn K)}
    {t : Turn K} (hrun : (server p).run StreamState.new ms = pre ++ t :: post) :
    Unaltered pre t.before := by
  refine (Machine.run_history (P := Unaltered) .new ?_ hrun).1
  intro pre u m hpre hgoes
  obtain ⟨replies, hok⟩ := exists_replies_of_goes hgoes
  exact Unaltered.step (t := (server p).turn u m) hp hpre (handle_run p u m) hok

/-- Filters that change nothing change nothing of a stream: whatever the order of its messages,
each reply is a rejection, or Envoy forwards on it exactly the bytes that came for the side that
ends and, but for one case, the headers it has. The case is a response with a name whose values
read differently: its earlier values are written over the last one. -/
theorem read_only_unaltered (hK : K.Lawful) (hp : p.ReadOnly) {ms : List Message}
    {pre post : List (Turn K)} {t : Turn K}
    (hrun : (server p).run StreamState.new ms = pre ++ t :: post) (hreply : reply ∈ t.reply.sent)
    (hb : ∀ side, Closes side t.message →
      b = bytesOf side ((pre ++ [t]).map Machine.Turn.message)) :
    PassesOn b
      (∀ resp, diffedAgainst (requestSeen (pre.map Machine.Turn.message)) (latestResponse pre)
        t.message = some resp → OneText K resp.headers) reply := by
  obtain ⟨hbefore, ht⟩ := run_replays hrun
  have hkept := run_unaltered hp hrun
  have hrequest : t.before.request.isSome = requestSeen (pre.map Machine.Turn.message) := by
    rw [hbefore, ← latestRequest_isSome]
    rfl
  have hbytes : ∀ side, Closes side t.message →
      b = t.before.body side ++ chunkOf side t.message := by
    intro side hclose
    rw [hb side hclose, bytesOf_concat, hkept.bytes]
  rw [← hrequest]
  exact (turn_run ht).passesOn hK hp hkept.response hbytes hreply

section PassAll

theorem passAll_readOnly : passAll.ReadOnly where
  extraHeaders ctx := rfl
  path ctx := rfl
  bodyExtraHeaders ctx body eos := rfl
  bodyPath ctx body eos := rfl
  response ctx resp hctx := by
    refine ⟨hctx, ?_⟩
    change ctx.responseHeader.getD _ = resp
    rw [hctx]
    rfl
  bodyResponse ctx body eos := rfl
  body side ctx body eos := by cases side <;> rfl

theorem Closes.side_eq {side' : Side} {body : HttpBody}
    (h : Closes side (bodyMessage side' body)) : side = side' := by
  generalize hm : bodyMessage side' body = m at h
  cases h with
  | headers _ he => cases side <;> cases side' <;> cases hm
  | body _ he =>
    cases side <;> cases side'
    · rfl
    · cases hm
    · cases hm
    · rfl

theorem chunked_unaltered : PassesOn [1, 2] True (bodyReply .request [1, 2] none) := by
  have hrun : (server passAll).run .new [.requestHeaders ⟨none, false⟩,
      .requestBody ⟨[1], false⟩, .requestBody ⟨[2], true⟩] =
        chunkedTurns ++ (server passAll).turn (replay passAll chunkedTurns)
          (.requestBody ⟨[2], true⟩) :: [] := rfl
  have hsent : bodyReply .request [1, 2] none ∈
      ((server passAll).turn (replay passAll chunkedTurns) (.requestBody ⟨[2], true⟩)).reply.sent :=
    List.mem_singleton.mpr rfl
  have hpasses := read_only_unaltered (b := [1, 2]) httpCrates_lawful passAll_readOnly hrun hsent ?_
  · refine hpasses.congr (iff_true_intro ?_)
    intro resp hresp
    cases hresp
  · intro side hclose
    have hclose' : Closes side (bodyMessage .request ⟨[2], true⟩) := hclose
    obtain rfl := hclose'.side_eq
    rfl

end PassAll

end ExtProc
