import Mathlib.Algebra.Group.Action.Defs
import ExtProc.Failures
import ExtProc.Forwarding
import ExtProc.Service

/-! The body bytes a server holds, however its streams and their consumers take turns. -/
namespace ExtProc

open Utf8 (Bytes)

variable {K : Crates} {p : FilterPipeline K} {s s' : StreamState K} {m : Message}
  {side side' : Side} {ctx : HttpFilterContext K} {o : Outcome K} {bound : Nat} {b buf : Bytes}
  {events : List (Event K)} {reply : ProcessingResponse} {mutation : Option HeaderMutation}

/-- Body hooks that leave a body within the bound when they are given one. -/
def FilterPipeline.StaysWithin (p : FilterPipeline K) (bound : Nat) : Prop :=
  ∀ side ctx b, b.length ≤ bound → (leftBody p side ctx b).length ≤ bound

def StreamState.Within (bound : Nat) (s : StreamState K) : Prop :=
  ∀ side, (s.body side).length ≤ bound

/-- The bytes of the body mutation a reply carries; what a filter rejects with, the body of an
immediate response or the text of a status, is no body of the stream and is not counted. -/
def ProcessingResponse.bodyBytes (reply : ProcessingResponse) : Nat :=
  match reply.bodyMutation? with
  | some (.body bytes) => bytes.length
  | _ => 0

theorem StreamState.Within.setBody (h : s.Within bound) (hb : b.length ≤ bound) :
    (s.setBody side b).Within bound := by
  intro side'
  rw [body_setBody]
  split
  · exact hb
  · exact h side'

theorem BodyRun.within {res : Except Status (HttpFilterContext K × Option ImmediateResponse)}
    (hp : p.StaysWithin bound) (h : BodyRun p side ctx s res events s') (hs : s.Within bound) :
    s'.Within bound := by
  cases h with
  | skipped hb => exact hs
  | failed hb he => exact hs.setBody (Nat.zero_le bound)
  | rejected hb hr | continued hb hc => exact hs.setBody (hp side ctx _ (hs side))

theorem StreamState.Within.takeResponse (h : s.Within bound) : s.takeResponse.Within bound := by
  intro side
  rw [takeResponse_body]
  exact h side

theorem RequestRun.within (hp : p.StaysWithin bound) (h : RequestRun p s o s')
    (hs : s.Within bound) : s'.Within bound := by
  cases h with
  | noRequest hq | failed hq he | rejected hq hr => exact hs
  | bodyFailed hq hc hb | bodyRejected hq hc hb => exact hb.within hp hs
  | done hq hc hb =>
    intro side
    rw [keepFilterState_body]
    exact hb.within hp hs side

theorem ResponseRun.within (hp : p.StaysWithin bound) (h : ResponseRun p s o s')
    (hs : s.Within bound) : s'.Within bound := by
  cases h with
  | noRequest hq | noResponse hq hresp => exact hs
  | failed hq hresp hx he | rejected hq hresp hx hr => exact hs.takeResponse
  | bodyFailed hq hresp hf hb | bodyRejected hq hresp hf hb | done hq hresp hf hb =>
    exact hb.within hp hs.takeResponse

theorem HeaderRun.within (h : HeaderRun p s o s') (hs : s.Within bound) : s'.Within bound := by
  cases h with
  | noRequest hq | noResponse hq hresp => exact hs
  | failed hq hresp he | rejected hq hresp hr =>
    intro side
    rw [setResponse_body]
    exact hs side
  | done hq hresp hc =>
    intro side
    rw [setResponseFiltersExecuted_body, setResponse_body]
    exact hs side

theorem StreamState.Within.setRequest {request : Request K} (h : s.Within bound) :
    (s.setRequest request).Within bound := by
  intro side
  rw [setRequest_body]
  exact h side

theorem StreamState.Within.setResponse {resp : Response K} (h : s.Within bound) :
    (s.setResponse resp).Within bound := by
  intro side
  rw [setResponse_body]
  exact h side

/-- No message makes a buffer outgrow a bound that is not below the cap. -/
theorem HandleRun.within (hp : p.StaysWithin bound) (hcap : maxBodyAccumulation ≤ bound)
    (h : HandleRun p s m o s') (hrefused : Overflows s.held m → o = ⟨.error bodyTooLarge, []⟩)
    (hs : s.Within bound) : s'.Within bound := by
  cases h with
  | requestOpened he => exact hs.setRequest
  | requestEnded he hrun => exact hrun.within hp hs.setRequest
  | responseOpened he hrun => exact hrun.within hs.setResponse
  | responseEnded he hrun => exact hrun.within hp hs.setResponse
  | chunkRefused side hover | trailers side t => exact hs
  | @chunkKept side b he =>
    by_cases hover : maxBodyAccumulation < (s.body side).length + b.body.length
    · cases hrefused (overflows_bodyMessage.mpr hover)
    · refine hs.setBody ?_
      rw [List.length_append]
      omega
  | @bodyEnded side b o s' hfits he hrun =>
    have hkept : (s.setBody side (s.body side ++ b.body)).Within bound := by
      refine hs.setBody ?_
      rw [List.length_append]
      omega
    cases hrun with
    | request hrun => exact hrun.within hp hkept
    | response hrun => exact hrun.within hp hkept

theorem handle_within (hp : p.StaysWithin bound) (hcap : maxBodyAccumulation ≤ bound)
    (hs : s.Within bound) (m : Message) : (handle p s m).2.Within bound := by
  refine (handle_run p s m).within hp hcap ?_ hs
  rintro ⟨side, b, rfl, hover⟩
  exact congrArg Prod.fst (handle_chunkRefused hover)

theorem bodyBytes_requestReplies (hreply : reply ∈ requestReplies ctx buf) :
    reply.bodyBytes ≤ buf.length := by
  cases buf with
  | nil =>
    obtain rfl := List.mem_singleton.mp hreply
    exact Nat.zero_le _
  | cons x xs =>
    obtain rfl := List.mem_singleton.mp hreply
    exact Nat.le_refl _

theorem bodyBytes_responseReplies (hreply : reply ∈ responseReplies mutation buf) :
    reply.bodyBytes ≤ buf.length := by
  cases buf with
  | nil =>
    obtain rfl := List.mem_singleton.mp hreply
    exact Nat.zero_le _
  | cons x xs =>
    obtain rfl := List.mem_singleton.mp hreply
    exact Nat.le_refl _

theorem bodyBytes_of_immediate {imm : ImmediateResponse}
    (hreply : reply ∈ [Reply.immediate imm]) : reply.bodyBytes ≤ bound := by
  obtain rfl := List.mem_singleton.mp hreply
  exact Nat.zero_le _

theorem RequestRun.reply_bytes (h : RequestRun p s o s') (hs' : s'.Within bound)
    (hreply : reply ∈ o.sent) : reply.bodyBytes ≤ bound := by
  cases h with
  | noRequest hq | failed hq he | bodyFailed hq hc hb => cases hreply
  | rejected hq hr | bodyRejected hq hc hb => exact bodyBytes_of_immediate hreply
  | done hq hc hb => exact (bodyBytes_requestReplies hreply).trans (hs' .request)

theorem ResponseRun.reply_bytes (h : ResponseRun p s o s') (hs' : s'.Within bound)
    (hreply : reply ∈ o.sent) : reply.bodyBytes ≤ bound := by
  cases h with
  | noRequest hq | noResponse hq hresp | failed hq hresp hx he | bodyFailed hq hresp hf hb =>
    cases hreply
  | rejected hq hresp hx hr | bodyRejected hq hresp hf hb => exact bodyBytes_of_immediate hreply
  | done hq hresp hf hb => exact (bodyBytes_responseReplies hreply).trans (hs' .response)

theorem HeaderRun.reply_bytes (h : HeaderRun p s o s') (hreply : reply ∈ o.sent) :
    reply.bodyBytes ≤ bound := by
  cases h with
  | failed hq hresp he | rejected hq hresp hr => cases hreply
  | noRequest hq | noResponse hq hresp | done hq hresp hc =>
    obtain rfl := List.mem_singleton.mp hreply
    exact Nat.zero_le _

/-- A reply carries a copy of a buffer, or no body. -/
theorem HandleRun.reply_bytes (h : HandleRun p s m o s') (hs' : s'.Within bound)
    (hreply : reply ∈ o.sent) : reply.bodyBytes ≤ bound := by
  cases h with
  | requestOpened he =>
    obtain rfl := List.mem_singleton.mp hreply
    exact Nat.zero_le _
  | requestEnded he hrun => exact hrun.reply_bytes hs' hreply
  | responseOpened he hrun => exact hrun.reply_bytes hreply
  | responseEnded he hrun => exact hrun.reply_bytes hs' hreply
  | chunkRefused side hover | chunkKept side he => cases hreply
  | bodyEnded side hfits he hrun =>
    cases hrun with
    | request hrun => exact hrun.reply_bytes hs' hreply
    | response hrun => exact hrun.reply_bytes hs' hreply
  | trailers side t =>
    obtain rfl := List.mem_singleton.mp hreply
    cases side <;> exact Nat.zero_le _

def Outbound.bodyBytes : Outbound → Nat
  | .ok reply => reply.bodyBytes
  | .error _ => 0

/-- The replies the task still has to put on its channel. -/
def TaskPc.unsent : TaskPc → List ProcessingResponse
  | .sending responses _ => responses
  | _ => []

/-- The body bytes of a stream: in its buffers, in the replies it is about to send and in those
that wait for the consumer. -/
def StreamTask.bodyBytes (t : StreamTask K) : Nat :=
  t.state.requestBody.length + t.state.responseBody.length +
    ((t.pc.unsent.map ProcessingResponse.bodyBytes).sum +
      (t.channel.queue.map Outbound.bodyBytes).sum)

structure StreamTask.Within (bound : Nat) (t : StreamTask K) : Prop where
  state : t.state.Within bound
  one : t.pc.unsent.length ≤ 1
  unsent : ∀ reply ∈ t.pc.unsent, reply.bodyBytes ≤ bound
  queue : ∀ item ∈ t.channel.queue, Outbound.bodyBytes item ≤ bound

theorem StreamTask.Within.spawn {inbound : List Inbound} :
    (StreamTask.spawn inbound : StreamTask K).Within bound := by
  refine ⟨?_, Nat.zero_le _, ?_, ?_⟩
  · intro side
    cases side <;> exact Nat.zero_le _
  · intro reply hreply
    cases hreply
  · intro item hitem
    cases hitem

/-- The task goes on with nothing to send. -/
theorem StreamTask.Within.goTo {t : StreamTask K} {pc : TaskPc} {events : List (LoopEvent K)}
    (h : t.Within bound) (hpc : pc.unsent = []) : (t.goTo pc events).Within bound := by
  refine ⟨h.state, ?_, ?_, h.queue⟩
  · change pc.unsent.length ≤ 1
    rw [hpc]
    exact Nat.zero_le _
  · intro reply hreply
    change reply ∈ pc.unsent at hreply
    rw [hpc] at hreply
    cases hreply

theorem StreamTask.Within.put {t : StreamTask K} {pc : TaskPc} {item : Outbound}
    {hroom : t.channel.queue.length < responseChannelSize} (h : t.Within bound)
    (hpc : pc.unsent.Sublist t.pc.unsent) (hitem : item.bodyBytes ≤ bound) :
    (t.put pc item hroom).Within bound := by
  refine ⟨h.state, hpc.length_le.trans h.one, ?_, ?_⟩
  · intro reply hreply
    exact h.unsent reply (hpc.subset hreply)
  · intro queued hqueued
    rcases List.mem_append.mp hqueued with hold | hnew
    · exact h.queue queued hold
    · obtain rfl := List.mem_singleton.mp hnew
      exact hitem

/-- One message leaves at most one reply to send. -/
theorem length_replies_le {responses : List ProcessingResponse}
    (hok : (handle p s m).1.replies = .ok responses) : responses.length ≤ 1 := by
  have hanswers := (handle_run p s m).answers hok
  split at hanswers
  · rw [hanswers]
    exact Nat.zero_le 1
  · obtain ⟨reply, rfl, -⟩ := hanswers
    exact Nat.le_refl 1

theorem TaskStep.within (hp : p.StaysWithin bound) (hcap : maxBodyAccumulation ≤ bound) {a : Actor}
    {t u : StreamTask K} (hstep : TaskStep p a t u) (h : t.Within bound) : u.Within bound := by
  cases hstep with
  | finished hpc | broken hpc | skipped hpc | sentAll hpc | foundClosed hpc hclosed | recorded hpc
  | recordedFailure hpc | reportedInVain hpc hclosed => exact h.goTo rfl
  | @answered _ m inbound responses hpc hok =>
    have hstate := handle_within hp hcap h.state m
    refine ⟨hstate, length_replies_le hok, ?_, h.queue⟩
    intro reply hreply
    refine (handle_run p t.state m).reply_bytes hstate ?_
    rw [Outcome.sent, hok]
    exact hreply
  | failed hpc he =>
    refine ⟨handle_within hp hcap h.state _, Nat.zero_le _, ?_, h.queue⟩
    intro reply hreply
    cases hreply
  | @sent _ inbound resp responses hpc hopen hroom =>
    have hunsent : t.pc.unsent = resp :: responses := by rw [hpc, TaskPc.unsent]
    refine h.put ?_ (h.unsent resp ?_)
    · rw [hunsent]
      exact List.sublist_cons_self resp responses
    · rw [hunsent]
      exact List.mem_cons_self
  | reported hpc hopen hroom => exact h.put (List.nil_sublist _) (Nat.zero_le _)
  | @taken _ item items hq =>
    refine ⟨h.state, h.one, h.unsent, ?_⟩
    intro queued hqueued
    refine h.queue queued ?_
    rw [hq]
    exact List.mem_cons_of_mem item hqueued
  | left hopen =>
    refine ⟨h.state, h.one, h.unsent, ?_⟩
    intro item hitem
    cases hitem

theorem sum_map_le {α : Type} {f : α → Nat} {l : List α} {n : Nat} (hl : l.length ≤ n)
    (hf : ∀ x ∈ l, f x ≤ bound) : (l.map f).sum ≤ n * bound := by
  have hsum : (l.map f).sum ≤ (l.map f).length • bound := by
    apply List.sum_le_card_nsmul
    intro k hk
    obtain ⟨x, hx, rfl⟩ := List.mem_map.mp hk
    exact hf x hx
  rw [List.length_map, smul_eq_mul] at hsum
  exact hsum.trans (Nat.mul_le_mul_right bound hl)

theorem StreamTask.Within.bodyBytes_le {t : StreamTask K} (h : t.Within bound) :
    t.bodyBytes ≤ (responseChannelSize + 3) * bound := by
  have hrequest : t.state.requestBody.length ≤ bound := h.state .request
  have hresponse : t.state.responseBody.length ≤ bound := h.state .response
  have hunsent := sum_map_le h.one h.unsent
  have hqueue := sum_map_le t.channel.bounded h.queue
  rw [StreamTask.bodyBytes, Nat.add_mul]
  omega

/-- The memory for bodies is bounded: in every order of the steps of finitely many streams and
their consumers, slow ones and those that never take a reply included, each stream holds at most
as many bodies as its channel has room for and three more, each within what the cap and the body
hooks allow. Rejections are not bodies here: their bytes come on top. -/
theorem memory_bounded {ι : Type} [DecidableEq ι] [Fintype ι] {inbound : ι → List Inbound}
    {v : Service K ι} (hp : p.StaysWithin bound) (hcap : maxBodyAccumulation ≤ bound)
    (h : Steps.Reaches (ServiceStep p) (.start inbound) v) :
    (∀ i, (v.tasks i).bodyBytes ≤ (responseChannelSize + 3) * bound) ∧
      ∑ i, (v.tasks i).bodyBytes ≤ Fintype.card ι * ((responseChannelSize + 3) * bound) := by
  have hstream : ∀ i, (v.tasks i).bodyBytes ≤ (responseChannelSize + 3) * bound := by
    intro i
    have halone := (reaches_beside h).alone i
    have hwithin : (v.tasks i).Within bound :=
      halone.keeps (P := StreamTask.Within bound)
        (fun a t u ht hstep => hstep.within hp hcap ht) .spawn
    exact hwithin.bodyBytes_le
  refine ⟨hstream, ?_⟩
  have hsum := Finset.sum_le_card_nsmul Finset.univ (fun i => (v.tasks i).bodyBytes) _
    fun i _ => hstream i
  rwa [smul_eq_mul, Finset.card_univ] at hsum

section Queued

theorem passAll_staysWithin : passAll.StaysWithin maxBodyAccumulation := by
  intro side ctx b hb
  cases side <;> exact hb

/-- A request with a body of one byte. -/
def byteInbound : Unit → List Inbound := fun _ =>
  [.ok ⟨some (.requestHeaders ⟨none, false⟩)⟩, .ok ⟨some (.requestBody ⟨[1], true⟩)⟩]

/-- A consumer that takes nothing: the byte waits in its reply, and what the body hook left of it in
the buffer. -/
theorem byte_queued : ∃ v : Service httpCrates Unit,
    Steps.Reaches (ServiceStep passAll) (.start byteInbound) v ∧
      (v.tasks ()).channel.queue.map Outbound.bodyBytes = [0, 1] ∧
      (v.tasks ()).bodyBytes = 2 ∧
      ∑ i, (v.tasks i).bodyBytes ≤
        Fintype.card Unit * ((responseChannelSize + 3) * maxBodyAccumulation) := by
  have hstart : Steps.Reaches (ServiceStep passAll) (.start byteInbound) _ :=
    Relation.ReflTransGen.refl
  have hheaders := hstart.next (.one () (.answered rfl rfl) rfl)
  have hfirst := hheaders.next (.one () (.sent rfl rfl (by decide)) rfl)
  have hback := hfirst.next (.one () (.sentAll rfl) (List.append_nil _).symm)
  have hbody := hback.next (.one () (.answered rfl rfl) rfl)
  have hsecond := hbody.next (.one () (.sent rfl rfl (by decide)) rfl)
  exact ⟨_, hsecond, rfl, rfl, (memory_bounded passAll_staysWithin (Nat.le_refl _) hsecond).2⟩

end Queued

end ExtProc
