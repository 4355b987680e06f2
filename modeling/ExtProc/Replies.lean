import Mathlib.Data.List.Forall2
import ExtProc.Http
import ExtProc.Outcomes
import ExtProc.RequestMutations
import ExtProc.Snapshot

/-! Which messages are answered, how often, and by what. -/
namespace ExtProc

open Utf8 (Bytes)

variable {K : Crates} {p : FilterPipeline K} {s s' : StreamState K} {m : Message} {side : Side}
  {ctx : HttpFilterContext K} {o : Outcome K} {r : ProcessingResponse}
  {replies : List ProcessingResponse} {buf : Bytes}

/-- A header mutation that is sent changes something, and gives each value as text and as bytes. -/
structure HeaderMutation.Proper (hm : HeaderMutation) : Prop where
  nonempty : hm.setHeaders ≠ [] ∨ hm.removeHeaders ≠ []
  entries : ∀ e ∈ hm.setHeaders, ∃ key value, e = headerValueOption key value

def ProperMutation (mutation : Option HeaderMutation) : Prop := ∀ hm ∈ mutation, hm.Proper

/-- A chunk that leaves its body open; no other message goes without a reply. -/
def Message.isOpenChunk : Message → Bool
  | .requestBody b | .responseBody b => !b.endOfStream
  | _ => false

/-- The message ends its side by `end_of_stream`; trailers are not among these. -/
inductive Closes : Side → Message → Prop
  | headers {h : HttpHeaders} (side : Side) (he : h.endOfStream = true) :
      Closes side (headersMessage side h)
  | body {b : HttpBody} (side : Side) (he : b.endOfStream = true) :
      Closes side (bodyMessage side b)

def headersReply (side : Side) (mutation : Option HeaderMutation) : ProcessingResponse :=
  match side with
  | .request => Reply.requestHeaders mutation
  | .response => Reply.responseHeaders mutation

def bodyReply (side : Side) (body : Bytes) (mutation : Option HeaderMutation) :
    ProcessingResponse :=
  Reply.wrapBodyResponse
    { status := .«continue», headerMutation := mutation,
      bodyMutation := some (Reply.makeBodyMutation body) } (side == .request)

/-- What a message may be answered by. Nothing is ever replaced but by a body that is not empty,
no body is ever cleared, and request headers ahead of a body and trailers pass as they are. -/
inductive Answers : Message → ProcessingResponse → Prop
  | requestOpened {h : HttpHeaders} (he : h.endOfStream = false) :
      Answers (.requestHeaders h) (headersReply .request none)
  | responseOpened {h : HttpHeaders} {mutation : Option HeaderMutation}
      (he : h.endOfStream = false) (hm : ProperMutation mutation) :
      Answers (.responseHeaders h) (headersReply .response mutation)
  | headers {m : Message} {side : Side} {mutation : Option HeaderMutation} (hclose : Closes side m)
      (hm : ProperMutation mutation) : Answers m (headersReply side mutation)
  | body {m : Message} {side : Side} {mutation : Option HeaderMutation} {body : Bytes}
      (hclose : Closes side m) (hbody : body ≠ []) (hm : ProperMutation mutation) :
      Answers m (bodyReply side body mutation)
  | rejected {m : Message} {side : Side} (hclose : Closes side m) (rejection : Rejection) :
      Answers m (Reply.immediate (rejectionToImmediate rejection))
  | trailers (side : Side) (t : HttpTrailers) :
      Answers (trailersMessage side t) (trailersReply side)

theorem ProperMutation.none : ProperMutation none := by
  intro hm h
  cases h

theorem collect_nonempty {hm : HeaderMutation} (h : collectRequestHeaderMutations ctx = some hm) :
    hm.setHeaders ≠ [] := by
  intro hnil
  have hentries := setEntries_of_collect h
  rw [HeaderMutation.setEntries, hnil] at hentries
  obtain ⟨hextras, hpath⟩ := List.append_eq_nil_iff.mp hentries.symm
  have hnone : collectRequestHeaderMutations ctx = none := by
    refine collect_eq_none_iff.mpr ⟨List.map_eq_nil_iff.mp hextras, ?_⟩
    exact Option.toList_eq_nil_iff.mp (List.map_eq_nil_iff.mp hpath)
  rw [hnone] at h
  cases h

theorem collect_entries {hm : HeaderMutation} (h : collectRequestHeaderMutations ctx = some hm)
    {e : HeaderValueOption} (he : e ∈ hm.setHeaders) :
    ∃ key value, e = headerValueOption key value := by
  rw [collectRequestHeaderMutations] at h
  split at h
  · cases h
  · cases h
    cases hpath : ctx.rewrittenPath with
    | none =>
      simp only [hpath, List.mem_map] at he
      obtain ⟨h, -, rfl⟩ := he
      exact ⟨h.1, h.2, rfl⟩
    | some path =>
      simp only [hpath, List.mem_append, List.mem_map, List.mem_singleton] at he
      rcases he with ⟨h, -, rfl⟩ | rfl
      · exact ⟨h.1, h.2, rfl⟩
      · exact ⟨":path", path, rfl⟩

theorem proper_collect : ProperMutation (collectRequestHeaderMutations ctx) := by
  intro hm h
  exact ⟨Or.inl (collect_nonempty h), fun e he => collect_entries h he⟩

theorem proper_diff {original : HashMap String String} :
    ProperMutation (collectResponseHeaderMutationsDiff ctx original) := by
  intro hm h
  cases hresp : ctx.responseHeader with
  | none => simp [collectResponseHeaderMutationsDiff, hresp] at h
  | some resp =>
    rw [diff_eq hresp] at h
    split at h
    · cases h
    · next hsome =>
      cases h
      constructor
      · simp only [Bool.and_eq_true, List.isEmpty_iff, not_and_or] at hsome
        exact hsome.imp_left fun hset hmap => hset (List.map_eq_nil_iff.mp hmap)
      · intro e he
        obtain ⟨h, -, rfl⟩ := List.mem_map.mp he
        exact ⟨_, _, rfl⟩

theorem answers_requestReplies (hclose : Closes .request m) :
    ∃ r, requestReplies ctx buf = [r] ∧ Answers m r := by
  cases buf with
  | nil => exact ⟨_, rfl, .headers hclose proper_collect⟩
  | cons x xs => exact ⟨_, rfl, .body hclose (List.cons_ne_nil x xs) proper_collect⟩

theorem answers_responseReplies {mutation : Option HeaderMutation} (hm : ProperMutation mutation)
    (hclose : Closes .response m) : ∃ r, responseReplies mutation buf = [r] ∧ Answers m r := by
  cases buf with
  | nil => exact ⟨_, rfl, .headers hclose hm⟩
  | cons x xs => exact ⟨_, rfl, .body hclose (List.cons_ne_nil x xs) hm⟩

theorem BodyRun.rejects_with {ran : HttpFilterContext K × Option ImmediateResponse}
    {events : List (Event K)} (h : BodyRun p side ctx s (.ok ran) events s')
    {imm : ImmediateResponse} (himm : ran.2 = some imm) :
    ∃ rejection, imm = rejectionToImmediate rejection := by
  cases h with
  | skipped hb | continued hb hc => cases himm
  | rejected hb hr =>
    cases himm
    exact ⟨_, rfl⟩

theorem RequestRun.answers (h : RequestRun p s o s') (hclose : Closes .request m)
    (hok : o.replies = .ok replies) : ∃ r, replies = [r] ∧ Answers m r := by
  cases h with
  | noRequest hq | failed hq he | bodyFailed hq hc hb => cases hok
  | rejected hq hr =>
    cases hok
    exact ⟨_, rfl, .rejected hclose _⟩
  | bodyRejected hq hc hb =>
    cases hok
    obtain ⟨rejection, rfl⟩ := hb.rejects_with rfl
    exact ⟨_, rfl, .rejected hclose _⟩
  | done hq hc hb =>
    cases hok
    exact answers_requestReplies hclose

theorem ResponseRun.answers (h : ResponseRun p s o s') (hclose : Closes .response m)
    (hok : o.replies = .ok replies) : ∃ r, replies = [r] ∧ Answers m r := by
  cases h with
  | noRequest hq | noResponse hq hp | failed hq hp hx he | bodyFailed hq hp hf hb => cases hok
  | rejected hq hp hx hr =>
    cases hok
    exact ⟨_, rfl, .rejected hclose _⟩
  | bodyRejected hq hp hf hb =>
    cases hok
    obtain ⟨rejection, rfl⟩ := hb.rejects_with rfl
    exact ⟨_, rfl, .rejected hclose _⟩
  | done hq hp hf hb =>
    cases hok
    exact answers_responseReplies proper_diff hclose

theorem HeaderRun.answers {h : HttpHeaders} (he : h.endOfStream = false)
    (hrun : HeaderRun p s o s') (hok : o.replies = .ok replies) :
    ∃ r, replies = [r] ∧ Answers (.responseHeaders h) r := by
  cases hrun with
  | noRequest hq | noResponse hq hp =>
    cases hok
    exact ⟨_, rfl, .responseOpened he .none⟩
  | failed hq hp he | rejected hq hp hr => cases hok
  | done hq hp hc =>
    cases hok
    exact ⟨_, rfl, .responseOpened he proper_diff⟩

/-- A message that is handled without failing gets one reply, a chunk that leaves its body open
none. -/
theorem HandleRun.answers (h : HandleRun p s m o s') (hok : o.replies = .ok replies) :
    if m.isOpenChunk then replies = [] else ∃ r, replies = [r] ∧ Answers m r := by
  cases h with
  | requestOpened he =>
    cases hok
    exact ⟨_, rfl, .requestOpened he⟩
  | requestEnded he hrun => exact hrun.answers (.headers .request he) hok
  | responseOpened he hrun => exact HeaderRun.answers he hrun hok
  | responseEnded he hrun => exact hrun.answers (.headers .response he) hok
  | chunkRefused side hover => cases hok
  | chunkKept side he =>
    cases hok
    cases side <;> simp [Message.isOpenChunk, bodyMessage, he]
  | @bodyEnded side b o s' hcap he hrun =>
    have hclosed : (bodyMessage side b).isOpenChunk = false := by
      cases side <;> simp [Message.isOpenChunk, bodyMessage, he]
    rw [hclosed]
    cases hrun with
    | request hrun => exact hrun.answers (.body .request he) hok
    | response hrun => exact hrun.answers (.body .response he) hok
  | trailers side t =>
    cases hok
    cases side
    · exact ⟨_, rfl, .trailers .request t⟩
    · exact ⟨_, rfl, .trailers .response t⟩

/-- The message was handled without failing, and is to be answered. -/
def isAnswered (t : Turn K) : Bool := t.reply.replies.isOk && !t.message.isOpenChunk

def answered (turns : List (Turn K)) : List Message :=
  (turns.filter isAnswered).map Machine.Turn.message

end ExtProc
