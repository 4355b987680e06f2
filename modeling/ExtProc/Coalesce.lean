import ExtProc.Chunks
import ExtProc.Delivery
import ExtProc.Http
import ExtProc.Merging

/-! Chunk boundaries: what a stream shows does not depend on how its bodies are cut. -/
namespace ExtProc

open Exec (exec exec_bind)
open Utf8 (Bytes)

variable {K : Crates} {p : FilterPipeline K} {side : Side} {a b : Bytes} {e : Bool}
  {x y z : Message} {inbound inbound' : List Inbound} {o : Outcome K} {os : List (Outcome K)}

/-- Two chunks of a body as one, when the first leaves the body open. -/
def joinBody (a b : HttpBody) : Option HttpBody :=
  if a.endOfStream then none
  else some { body := a.body ++ b.body, endOfStream := b.endOfStream }

def joinChunks : Message → Message → Option Message
  | .requestBody a, .requestBody b => (joinBody a b).map .requestBody
  | .responseBody a, .responseBody b => (joinBody a b).map .responseBody
  | _, _ => none

/-- The messages with every body cut as rarely as can be. -/
def coalesce (ms : List Message) : List Message := Machine.merge joinChunks ms

/-- A message that does more than fill a buffer. -/
def Outcome.shows (o : Outcome K) : Bool :=
  !(o.replies.isOk && o.sent.isEmpty && o.log.isEmpty)

theorem joinBody_eq_some {a b c : HttpBody} (h : joinBody a b = some c) :
    a.endOfStream = false ∧ c = ⟨a.body ++ b.body, b.endOfStream⟩ := by
  cases ha : a.endOfStream with
  | true => simp [joinBody, ha] at h
  | false =>
    simp only [joinBody, ha] at h
    exact ⟨rfl, (Option.some.inj h).symm⟩

theorem joinChunks_eq_some (h : joinChunks x y = some z) : ∃ side a b, a.endOfStream = false ∧
    x = bodyMessage side a ∧ y = bodyMessage side b ∧
      z = bodyMessage side ⟨a.body ++ b.body, b.endOfStream⟩ := by
  unfold joinChunks at h
  split at h
  · next a b =>
    obtain ⟨c, hjoin, rfl⟩ := Option.map_eq_some_iff.mp h
    obtain ⟨ha, rfl⟩ := joinBody_eq_some hjoin
    exact ⟨.request, a, b, ha, rfl, rfl, rfl⟩
  · next a b =>
    obtain ⟨c, hjoin, rfl⟩ := Option.map_eq_some_iff.mp h
    obtain ⟨ha, rfl⟩ := joinBody_eq_some hjoin
    exact ⟨.response, a, b, ha, rfl, rfl, rfl⟩
  · cases h

theorem handle_chunkRefused {s : StreamState K} {c : HttpBody}
    (hover : maxBodyAccumulation < (s.body side).length + c.body.length) :
    handle p s (bodyMessage side c) = (⟨.error bodyTooLarge, []⟩, s) := by
  rw [handle_bodyMessage, if_pos hover]

/-- A chunk that leaves its body open is refused, and then so is the joined one; or it is kept, and
then the joined one does what the next one does. -/
theorem openChunk_cases (p : FilterPipeline K) (s : StreamState K) (side : Side) (a b : Bytes)
    (e : Bool) :
    handle p s (bodyMessage side ⟨a, false⟩) = (⟨.error bodyTooLarge, []⟩, s) ∧
        handle p s (bodyMessage side ⟨a ++ b, e⟩) = (⟨.error bodyTooLarge, []⟩, s) ∨
      ∃ t, handle p s (bodyMessage side ⟨a, false⟩) = (silent, t) ∧
        ((handle p s (bodyMessage side ⟨a ++ b, e⟩)).1 = ⟨.error bodyTooLarge, []⟩ ∧
            (handle p t (bodyMessage side ⟨b, e⟩)).1 = ⟨.error bodyTooLarge, []⟩ ∨
          handle p s (bodyMessage side ⟨a ++ b, e⟩) = handle p t (bodyMessage side ⟨b, e⟩)) := by
  by_cases hover : maxBodyAccumulation < (s.body side).length + a.length
  · have hboth : maxBodyAccumulation < (s.body side).length + (a ++ b).length := by
      rw [List.length_append]
      omega
    exact Or.inl ⟨handle_chunkRefused hover, handle_chunkRefused hboth⟩
  · refine Or.inr ⟨s.setBody side (s.body side ++ a), handle_openChunk (by omega), ?_⟩
    by_cases hboth : maxBodyAccumulation < (s.body side).length + (a ++ b).length
    · have hnext : maxBodyAccumulation <
          ((s.setBody side (s.body side ++ a)).body side).length + b.length := by
        simp only [setBody_body, List.length_append] at hboth ⊢
        omega
      left
      rw [handle_chunkRefused hboth, handle_chunkRefused hnext]
      exact ⟨rfl, rfl⟩
    · have hnext : ¬ maxBodyAccumulation <
          ((s.setBody side (s.body side ++ a)).body side).length + b.length := by
        simp only [setBody_body, List.length_append] at hboth ⊢
        omega
      right
      rw [handle_bodyMessage, handle_bodyMessage, if_neg hboth, if_neg hnext]
      simp only [setBody_body, setBody_setBody, List.append_assoc]

theorem step_server (p : FilterPipeline K) (s : StreamState K) (m : Message) :
    (server p).step s m = handle p s m := rfl

/-- A chunk that leaves its body open is handled together with the next one. -/
theorem chunks_merge (p : FilterPipeline K) (side : Side) (a b : Bytes) (e : Bool) :
    (server p).Merges Outcome.shows (bodyMessage side ⟨a, false⟩) (bodyMessage side ⟨b, e⟩)
      (bodyMessage side ⟨a ++ b, e⟩) := by
  have hfails : (server p).fails ⟨.error bodyTooLarge, []⟩ = true := rfl
  have hok : (server p).fails silent = false := rfl
  refine ⟨?_, ?_, ?_, ?_⟩ <;> intro s hs <;>
    rcases openChunk_cases p s side a b e with ⟨hx, hz⟩ | ⟨t, hx, hnext⟩ <;>
    simp only [step_server, hx, hfails, hok, Bool.true_eq_false, Bool.false_eq_true] at hs ⊢
  · rw [hz]
  · rfl
  · rcases hnext with ⟨hz, hy⟩ | heq
    · rw [hz, hy]
    · rw [heq]
  · intro hz'
    rcases hnext with ⟨hz, hy⟩ | heq
    · rw [hz, hfails] at hz'
      cases hz'
    · rw [heq]

theorem joinChunks_merges (h : joinChunks x y = some z) :
    (server p).Merges Outcome.shows x y z := by
  obtain ⟨side, a, b, ha, rfl, rfl, rfl⟩ := joinChunks_eq_some h
  rcases a with ⟨a, _ | _⟩
  · exact chunks_merge p side a b.body b.endOfStream
  · cases ha

/-- Streams that differ in their chunk boundaries only are handled alike, from every state. -/
theorem coalesced_agree {ms ms' : List Message} (h : coalesce ms = coalesce ms') :
    (server p).Agree Outcome.shows ms ms' :=
  Machine.agree_of_merge_eq (fun _ _ _ => joinChunks_merges) h

theorem turnTrace_of_unseen (h : o.shows = false) : turnTrace o = [] := by
  simp only [Outcome.shows, Bool.not_eq_false', Bool.and_eq_true, List.isEmpty_iff] at h
  obtain ⟨⟨-, hsent⟩, hlog⟩ := h
  rw [turnTrace, hsent, hlog]
  rfl

theorem status_of_unseen (h : o.shows = false) : o.status? = none := by
  simp only [Outcome.shows, Bool.not_eq_false', Bool.and_eq_true] at h
  obtain ⟨⟨hok, -⟩, -⟩ := h
  cases hreplies : o.replies with
  | ok replies => simp [Outcome.status?, hreplies]
  | error st =>
    rw [hreplies] at hok
    cases hok

theorem trace_filter_shows (os : List (Outcome K)) : trace (os.filter Outcome.shows) = trace os := by
  induction os with
  | nil => rfl
  | cons o os ih =>
    have htail : (os.filter Outcome.shows).flatMap turnTrace = os.flatMap turnTrace := ih
    cases ho : o.shows with
    | true =>
      rw [List.filter_cons_of_pos ho, trace, trace, List.flatMap_cons, List.flatMap_cons, htail]
    | false =>
      rw [List.filter_cons_of_neg (by simp [ho]), trace, trace, List.flatMap_cons,
        turnTrace_of_unseen ho, htail, List.nil_append]

theorem findSome_filter_shows (os : List (Outcome K)) :
    (os.filter Outcome.shows).findSome? Outcome.status? = os.findSome? Outcome.status? := by
  induction os with
  | nil => rfl
  | cons o os ih =>
    cases ho : o.shows with
    | true => rw [List.filter_cons_of_pos ho, List.findSome?_cons, List.findSome?_cons, ih]
    | false =>
      rw [List.filter_cons_of_neg (by simp [ho]), List.findSome?_cons, status_of_unseen ho, ih]

@[simp] theorem delivered_put (item : Outbound) (log : List (LoopEvent K)) :
    delivered (.put item :: log) = item :: delivered log := rfl

/-- A channel that closes on an item of a trace does not take the whole trace. -/
theorem not_takes_of_closed {room : Option Nat} {trace done rest : List (LoopEvent K)}
    {item : Outbound} (ht : trace = done ++ .put item :: rest)
    (hroom : room = some (delivered done).length) : ¬ Takes room (delivered trace).length := by
  intro htakes
  have hle := htakes _ hroom
  rw [ht, delivered_append, delivered_put, List.length_append, List.length_cons] at hle
  omega

/-- A trace splits in one way at the item a full channel is closed on. -/
theorem closed_split_unique {done done' rest rest' : List (LoopEvent K)} {item item' : Outbound}
    (h : done ++ .put item :: rest = done' ++ .put item' :: rest')
    (hcount : (delivered done).length = (delivered done').length) : done = done' := by
  have hnil : ∀ {d d' r r' as : List (LoopEvent K)} {i i' : Outbound}, d' = d ++ as →
      .put i :: r = as ++ .put i' :: r' → (delivered d).length = (delivered d').length →
        d = d' := by
    intro d d' r r' as i i' hd hr hlen
    cases as with
    | nil => rw [hd, List.append_nil]
    | cons a as =>
      obtain ⟨rfl, -⟩ := List.cons.inj hr
      rw [hd, delivered_append, delivered_put, List.length_append, List.length_cons] at hlen
      omega
  rcases List.append_eq_append_iff.mp h with ⟨as, hd, hr⟩ | ⟨as, hd, hr⟩
  · exact hnil hd hr hcount
  · exact (hnil hd hr hcount.symm).symm

/-- How far a trace gets is settled by the trace and the room. -/
theorem Played.unique {room room₁ room₂ : Option Nat} {b₁ b₂ : Bool}
    {trace events₁ events₂ : List (LoopEvent K)} (h₁ : Played room trace b₁ room₁ events₁)
    (h₂ : Played room trace b₂ room₂ events₂) : b₁ = b₂ ∧ room₁ = room₂ ∧ events₁ = events₂ := by
  cases h₁ with
  | whole htakes =>
    cases h₂ with
    | whole htakes' => exact ⟨rfl, rfl, rfl⟩
    | closed ht hroom => exact (not_takes_of_closed ht hroom htakes).elim
  | closed ht hroom =>
    cases h₂ with
    | whole htakes => exact (not_takes_of_closed ht hroom htakes).elim
    | closed ht' hroom' =>
      have hcount := Option.some.inj (hroom.symm.trans hroom')
      have hdone := closed_split_unique (ht.symm.trans ht') hcount
      exact ⟨rfl, rfl, by rw [hdone]⟩

section Streams
variable (htrace : trace (outcomes p .new inbound) = trace (outcomes p .new inbound'))
  (hfailure : failure p .new inbound = failure p .new inbound')
include htrace hfailure

theorem handleStream_alike (w : Session K) : ∃ r s s' room log,
    exec (handleStream p inbound) w = (r, ⟨s, room, log⟩) ∧
      exec (handleStream p inbound') w = (r, ⟨s', room, log⟩) := by
  obtain ⟨b, s, room, events, hrun, hplayed⟩ := handleStream_run p inbound w
  obtain ⟨b', s', room', events', hrun', hplayed'⟩ := handleStream_run p inbound' w
  rw [← htrace] at hplayed'
  obtain ⟨rfl, rfl, rfl⟩ := hplayed.unique hplayed'
  rw [← hfailure] at hrun'
  exact ⟨_, s, s', room, _, hrun, hrun'⟩

theorem process_alike (w : Session K) :
    (exec (process p inbound) w).2.log = (exec (process p inbound') w).2.log := by
  obtain ⟨r, s, s', room, log, hrun, hrun'⟩ := handleStream_alike htrace hfailure w
  cases r with
  | ok u => simp [process, hrun, hrun']
  | error e =>
    cases room with
    | none => simp [process, hrun, hrun', exec_bind, Loop.send]
    | some n => cases n <;> simp [process, hrun, hrun', exec_bind, Loop.send]

end Streams

/-- However the bodies of a stream are cut into chunks, and wherever the consumer leaves, the
same things happen in the same order: hooks, counter increments, replies and the final status. -/
theorem chunking_unobservable (p : FilterPipeline K) (room : Option Nat)
    (hmessages : coalesce (messagesOf inbound) = coalesce (messagesOf inbound'))
    (hend : transportFailure inbound = transportFailure inbound') :
    (exec (process p inbound) (.start room)).2.log =
      (exec (process p inbound') (.start room)).2.log := by
  have hagree := (coalesced_agree (p := p) hmessages).replies .new
  refine process_alike ?_ ?_ (.start room)
  · rw [← trace_filter_shows, ← trace_filter_shows (outcomes p .new inbound')]
    exact congrArg trace hagree
  · rw [failure, failure, hend, ← findSome_filter_shows,
      ← findSome_filter_shows (outcomes p .new inbound')]
    exact congrArg (fun os : List (Outcome K) =>
      (os.findSome? Outcome.status?).or (transportFailure inbound')) hagree

section Cutting

/-- A request whose body is cut into these chunks. -/
def cutRequest (chunks : List Bytes) : List Inbound :=
  (closedStream .request none chunks).map fun m => .ok ⟨some m⟩

theorem cut_elsewhere :
    (exec (process passAll (cutRequest [[1], [2, 3], [4]])) (.start (some 1))).2.log =
      (exec (process passAll (cutRequest [[1, 2], [], [3, 4]])) (.start (some 1))).2.log :=
  chunking_unobservable passAll (some 1) rfl rfl

end Cutting

end ExtProc
