import Mathlib.Data.List.Basic
import ExtProc.Loop

/-! What the stream loop puts on the reply channel, and where it stops. -/
namespace ExtProc

open Exec (exec exec_bind)

variable {K : Crates} {p : FilterPipeline K} {s : StreamState K} {w : Session K}
  {inbound : List Inbound} {os : List (Outcome K)} {log log' : List (LoopEvent K)}

def LoopEvent.put? : LoopEvent K → Option Outbound
  | .put item => some item
  | _ => none

def LoopEvent.handler? : LoopEvent K → Option (Event K)
  | .handler e => some e
  | _ => none

/-- The items put on the channel, in order. -/
def delivered (log : List (LoopEvent K)) : List Outbound := log.filterMap LoopEvent.put?

/-- What the handlers did, in order. -/
def handled (log : List (LoopEvent K)) : List (Event K) := log.filterMap LoopEvent.handler?

/-- The requests before the first transport error. -/
def messagesOf : List Inbound → List Message
  | [] => []
  | .error _ :: _ => []
  | .ok msg :: inbound => msg.request.toList ++ messagesOf inbound

def transportFailure : List Inbound → Option Status
  | [] => none
  | .error e :: _ => some (Status.internal e)
  | .ok _ :: inbound => transportFailure inbound

def Outcome.status? (o : Outcome K) : Option Status :=
  match o.replies with
  | .ok _ => none
  | .error st => some st

/-- The messages handled, up to the first that fails. -/
def outcomes (p : FilterPipeline K) (s : StreamState K) (inbound : List Inbound) :
    List (Outcome K) :=
  (server p).replies s (messagesOf inbound)

/-- The status of the first item that fails. -/
def failure (p : FilterPipeline K) (s : StreamState K) (inbound : List Inbound) : Option Status :=
  ((outcomes p s inbound).findSome? Outcome.status?).or (transportFailure inbound)

/-- The replies in message order, and the status of the item that ends them. -/
def expected (p : FilterPipeline K) (s : StreamState K) (inbound : List Inbound) : List Outbound :=
  (sent (outcomes p s inbound)).map .ok ++ (failure p s inbound).toList.map .error

/-- The channel takes `n` more items. -/
def Takes (room : Option Nat) (n : Nat) : Prop := ∀ k, room = some k → n ≤ k

def spend (room : Option Nat) (n : Nat) : Option Nat := room.map (· - n)

/-- How far a trace gets: to its end, or to the first item the channel does not take. -/
inductive Played (room : Option Nat) (trace : List (LoopEvent K)) :
    Bool → Option Nat → List (LoopEvent K) → Prop
  | whole (h : Takes room (delivered trace).length) :
      Played room trace true (spend room (delivered trace).length) trace
  | closed {done rest : List (LoopEvent K)} {item : Outbound}
      (ht : trace = done ++ .put item :: rest) (hroom : room = some (delivered done).length) :
      Played room trace false (some 0) (done ++ [.foundClosed])

section Played
variable {room room' room'' : Option Nat} {trace trace' events events' : List (LoopEvent K)}
  {b : Bool} {m n : Nat}

@[simp] theorem delivered_append : delivered (log ++ log') = delivered log ++ delivered log' :=
  List.filterMap_append
@[simp] theorem handled_append : handled (log ++ log') = handled log ++ handled log' :=
  List.filterMap_append

@[simp] theorem delivered_handlers (es : List (Event K)) :
    delivered (es.map LoopEvent.handler) = [] := by
  induction es with
  | nil => rfl
  | cons e es ih => exact ih

@[simp] theorem handled_handlers (es : List (Event K)) :
    handled (es.map LoopEvent.handler) = es := by
  induction es with
  | nil => rfl
  | cons e es ih => exact congrArg (List.cons e) ih

@[simp] theorem delivered_puts (items : List Outbound) :
    delivered (items.map LoopEvent.put : List (LoopEvent K)) = items := by
  induction items with
  | nil => rfl
  | cons item items ih => exact congrArg (List.cons item) ih

@[simp] theorem handled_puts (items : List Outbound) :
    handled (items.map LoopEvent.put : List (LoopEvent K)) = [] := by
  induction items with
  | nil => rfl
  | cons item items ih => exact ih

theorem spend_zero : spend room 0 = room := by
  cases room <;> rfl

theorem spend_spend : spend (spend room m) n = spend room (m + n) := by
  cases room with
  | none => rfl
  | some k => exact congrArg some (Nat.sub_sub k m n)

theorem takes_add (h : Takes room m) (h' : Takes (spend room m) n) : Takes room (m + n) := by
  intro k hk
  have hm := h k hk
  have hn := h' (k - m) (by rw [hk]; rfl)
  omega

theorem Played.quiet (h : delivered trace = []) : Played room trace true room trace := by
  have htakes : Takes room (delivered trace).length := by simp [h, Takes]
  have hplayed := Played.whole htakes
  rw [h, List.length_nil, spend_zero] at hplayed
  exact hplayed

/-- A trace that gets to its end goes on with the next one. -/
theorem Played.append (h : Played room trace true room' events)
    (h' : Played room' trace' b room'' events') :
    Played room (trace ++ trace') b room'' (events ++ events') := by
  cases h with
  | whole htakes =>
    cases h' with
    | whole htakes' =>
      rw [spend_spend, ← List.length_append, ← delivered_append]
      refine .whole ?_
      rw [delivered_append, List.length_append]
      exact takes_add htakes htakes'
    | @closed done rest item ht hroom =>
      have hboth : trace ++ trace' = (trace ++ done) ++ .put item :: rest := by
        rw [ht, List.append_assoc]
      rw [← List.append_assoc]
      refine .closed hboth ?_
      cases room with
      | none => cases hroom
      | some k =>
        have hk := htakes k rfl
        have hleft : k - (delivered trace).length = (delivered done).length :=
          Option.some.inj hroom
        rw [delivered_append, List.length_append]
        exact congrArg some (by omega)

theorem Played.stop (h : Played room trace false room' events) :
    Played room (trace ++ trace') false room' events := by
  cases h with
  | @closed done rest item ht hroom =>
    have hboth : trace ++ trace' = done ++ .put item :: (rest ++ trace') := by
      rw [ht, List.append_assoc, List.cons_append]
    exact .closed hboth hroom

/-- What a trace puts on the channel is what it should put there, up to some point. -/
theorem Played.delivered_prefix (h : Played room trace b room' events) :
    delivered events <+: delivered trace := by
  cases h with
  | whole htakes => exact List.prefix_rfl
  | closed ht hroom =>
    rw [ht, delivered_append, delivered_append]
    exact (List.prefix_append_right_inj _).mpr List.nil_prefix

theorem Played.handled_prefix (h : Played room trace b room' events) :
    handled events <+: handled trace := by
  cases h with
  | whole htakes => exact List.prefix_rfl
  | closed ht hroom =>
    rw [ht, handled_append, handled_append]
    exact (List.prefix_append_right_inj _).mpr List.nil_prefix

/-- Behind the point where the channel was found closed there is only what the trace has not. -/
theorem Played.after_foundClosed {pre post tail : List (LoopEvent K)}
    (h : Played room trace b room' events) (hno : .foundClosed ∉ trace)
    (htail : .foundClosed ∉ tail) (hlog : events ++ tail = pre ++ .foundClosed :: post) :
    post = tail := by
  cases h with
  | whole htakes =>
    have hmem : .foundClosed ∈ pre ++ .foundClosed :: post := by simp
    rw [← hlog] at hmem
    exact ((List.mem_append.mp hmem).elim hno htail).elim
  | @closed done rest item ht hroom =>
    have hdone : .foundClosed ∉ done := fun hmem => hno (ht ▸ List.mem_append_left _ hmem)
    rw [List.append_assoc, List.cons_append] at hlog
    exact ((List.append_cons_inj_of_notMem hdone htail).mp hlog).2.2.symm

theorem Played.eq_of_open (h : Played none trace b room' events) : b = true ∧ events = trace := by
  cases h with
  | whole htakes => exact ⟨rfl, rfl⟩
  | closed ht hroom => cases hroom

end Played

/-- What one message adds to the log: its handler, and then its replies. -/
def turnTrace (o : Outcome K) : List (LoopEvent K) :=
  o.log.map .handler ++ (o.sent.map Except.ok).map .put

def trace (os : List (Outcome K)) : List (LoopEvent K) := os.flatMap turnTrace

/-- How the loop ends. -/
def ending : Option Status → Except Status Unit
  | none => .ok ()
  | some st => .error st

theorem send_run (item : Outbound) (w : Session K) : ∃ b room events,
    exec (Loop.send item) w = (.ok b, ⟨w.state, room, w.log ++ events⟩) ∧
      Played w.room [.put item] b room events := by
  obtain ⟨s, room, log⟩ := w
  cases room with
  | none => exact ⟨true, none, _, rfl, .whole (by simp [Takes])⟩
  | some n =>
    cases n with
    | zero =>
      have hclosed : Played (K := K) (some 0) [.put item] false (some 0) ([] ++ [.foundClosed]) :=
        .closed rfl rfl
      exact ⟨false, some 0, [.foundClosed], rfl, hclosed⟩
    | succ n =>
      have htakes : Takes (some (n + 1)) 1 := by
        intro k hk
        cases hk
        omega
      exact ⟨true, some n, [.put item], rfl, .whole htakes⟩

theorem sendResponses_run (responses : List ProcessingResponse) (w : Session K) :
    ∃ b room events,
      exec (sendResponses responses) w = (.ok b, ⟨w.state, room, w.log ++ events⟩) ∧
        Played w.room ((responses.map Except.ok).map .put) b room events := by
  induction responses generalizing w with
  | nil => exact ⟨true, w.room, [], by rw [List.append_nil]; rfl, .quiet rfl⟩
  | cons resp responses ih =>
    obtain ⟨b, room, events, hsend, hplayed⟩ := send_run (.ok resp) w
    cases b with
    | false =>
      refine ⟨false, room, events, ?_, hplayed.stop⟩
      simp [sendResponses, exec_bind, hsend]
    | true =>
      obtain ⟨b, room', events', hrest, hplayed'⟩ := ih ⟨w.state, room, w.log ++ events⟩
      refine ⟨b, room', events ++ events', ?_, hplayed.append hplayed'⟩
      simp [sendResponses, exec_bind, hsend, hrest]

theorem handled_turnTrace (o : Outcome K) : handled (turnTrace o) = o.log := by
  rw [turnTrace, handled_append, handled_handlers, handled_puts, List.append_nil]

theorem delivered_turnTrace (o : Outcome K) : delivered (turnTrace o) = o.sent.map .ok := by
  rw [turnTrace, delivered_append, delivered_handlers, delivered_puts, List.nil_append]

section Request
variable {m : Message} {st : Status} {replies : List ProcessingResponse}

theorem outcomes_of_refused (h : (handle p s m).1.replies = .error st) :
    outcomes p s (.ok ⟨some m⟩ :: inbound) = [(handle p s m).1] := replies_of_refused rfl h

theorem failure_of_refused (h : (handle p s m).1.replies = .error st) :
    failure p s (.ok ⟨some m⟩ :: inbound) = some st := by
  simp [failure, outcomes_of_refused h, Outcome.status?, h]

theorem outcomes_of_answered (h : (handle p s m).1.replies = .ok replies) :
    outcomes p s (.ok ⟨some m⟩ :: inbound) =
      (handle p s m).1 :: outcomes p (handle p s m).2 inbound := replies_of_answered rfl h

theorem failure_of_answered (h : (handle p s m).1.replies = .ok replies) :
    failure p s (.ok ⟨some m⟩ :: inbound) = failure p (handle p s m).2 inbound := by
  simp [failure, outcomes_of_answered h, Outcome.status?, h, transportFailure]

theorem turnTrace_of_refused {o : Outcome K} (h : o.replies = .error st) :
    turnTrace o = o.log.map .handler := by
  simp [turnTrace, Outcome.sent, h]

theorem sent_of_answered {o : Outcome K} (h : o.replies = .ok replies) : o.sent = replies := by
  simp [Outcome.sent, h]

end Request

/-- The loop plays the trace of the messages, and ends with the failure unless it was stopped. -/
theorem processMessages_run (p : FilterPipeline K) (inbound : List Inbound) (w : Session K) :
    ∃ b s room events, exec (processMessages p inbound) w =
        (ending (if b then failure p w.state inbound else none), ⟨s, room, w.log ++ events⟩) ∧
      Played w.room (trace (outcomes p w.state inbound)) b room events := by
  induction inbound generalizing w with
  | nil => exact ⟨true, w.state, w.room, [], by rw [List.append_nil]; rfl, .quiet rfl⟩
  | cons item inbound ih =>
    cases item with
    | error e => exact ⟨true, w.state, w.room, [], by rw [List.append_nil]; rfl, .quiet rfl⟩
    | ok msg =>
      rcases msg with ⟨request⟩
      cases request with
      | none => exact ih w
      | some m =>
        have hhandle := exec_loopHandle (w := w) p m
        cases hreplies : (handle p w.state m).1.replies with
        | error st =>
          rw [outcomes_of_refused hreplies, failure_of_refused hreplies]
          refine ⟨true, (handle p w.state m).2, w.room, (handle p w.state m).1.log.map .handler,
            ?_, ?_⟩
          · simp [processMessages, exec_bind, hhandle, hreplies, ending]
          · simp only [trace, List.flatMap_cons, List.flatMap_nil, List.append_nil,
              turnTrace_of_refused hreplies]
            exact .quiet (delivered_handlers _)
        | ok replies =>
          rw [outcomes_of_answered hreplies, failure_of_answered hreplies]
          have hquiet : Played w.room ((handle p w.state m).1.log.map .handler) true w.room
              ((handle p w.state m).1.log.map .handler) := .quiet (delivered_handlers _)
          obtain ⟨b, room, events, hsend, hplayed⟩ := sendResponses_run replies
            ⟨(handle p w.state m).2, w.room,
              w.log ++ (handle p w.state m).1.log.map .handler⟩
          have hturn : Played w.room (turnTrace (handle p w.state m).1) b room
              ((handle p w.state m).1.log.map .handler ++ events) := by
            rw [turnTrace, sent_of_answered hreplies]
            exact hquiet.append hplayed
          cases b with
          | false =>
            refine ⟨false, (handle p w.state m).2, room, _, ?_, hturn.stop⟩
            simp [processMessages, exec_bind, hhandle, hreplies, hsend, ending]
          | true =>
            obtain ⟨b, s', room', events', hrest, hplayed'⟩ := ih
              ⟨(handle p w.state m).2, room,
                w.log ++ ((handle p w.state m).1.log.map .handler ++ events)⟩
            refine ⟨b, s', room', _, ?_, hturn.append hplayed'⟩
            simp [processMessages, exec_bind, hhandle, hreplies, hsend, hrest]

theorem handleStream_run (p : FilterPipeline K) (inbound : List Inbound) (w : Session K) :
    ∃ b s room events, exec (handleStream p inbound) w =
        (ending (if b then failure p .new inbound else none),
          ⟨s, room, w.log ++ (events ++ [.recordRequest])⟩) ∧
      Played w.room (trace (outcomes p .new inbound)) b room events := by
  obtain ⟨b, s, room, events, hrun, hplayed⟩ :=
    processMessages_run p inbound { w with state := .new }
  refine ⟨b, s, room, events, ?_, hplayed⟩
  cases hend : (if b then failure p .new inbound else none) with
  | none =>
    simp only [hend] at hrun
    simp [handleStream, exec_bind, hrun, ending]
  | some st =>
    simp only [hend] at hrun
    simp [handleStream, exec_bind, hrun, ending]

/-- The whole trace of a stream: the messages, and behind them the failure. -/
def fullTrace (p : FilterPipeline K) (inbound : List Inbound) : List (LoopEvent K) :=
  trace (outcomes p .new inbound) ++ [.recordRequest] ++
    ((failure p .new inbound).toList.map Except.error).map .put

/-- The log of `process` is its whole trace as far as the channel takes it. -/
theorem process_run (p : FilterPipeline K) (inbound : List Inbound) (w : Session K) :
    ∃ b s room events,
      exec (process p inbound) w = (.ok (), ⟨s, room, w.log ++ events⟩) ∧
      (Played w.room (fullTrace p inbound) b room events ∨
        ∃ played, Played w.room (trace (outcomes p .new inbound)) false room played ∧
          events = played ++ [.recordRequest]) := by
  obtain ⟨b, s, room, events, hrun, hplayed⟩ := handleStream_run p inbound w
  cases b with
  | false =>
    refine ⟨false, s, room, events ++ [.recordRequest], ?_, Or.inr ⟨events, hplayed, rfl⟩⟩
    simp [process, hrun, ending]
  | true =>
    have hrecord : Played room [.recordRequest] true room ([.recordRequest] : List (LoopEvent K)) :=
      .quiet rfl
    have hmessages := hplayed.append hrecord
    cases hfail : failure p .new inbound with
    | none =>
      refine ⟨true, s, room, events ++ [.recordRequest], ?_, Or.inl ?_⟩
      · simp [process, hrun, hfail, ending]
      · simpa [fullTrace, hfail] using hmessages
    | some st =>
      obtain ⟨b, room', events', hsend, hput⟩ := send_run (.error st)
        ⟨s, room, w.log ++ (events ++ [.recordRequest])⟩
      refine ⟨b, s, room', events ++ [.recordRequest] ++ events', ?_, Or.inl ?_⟩
      · simp [process, hrun, hfail, ending, hsend]
      · rw [fullTrace, hfail]
        exact hmessages.append hput

/-- A log puts the expected items on the channel, in order and up to where it was closed. Nothing
is sent and no hook invoked behind that point, nothing comes behind a status, and the hooks are
those of the messages up to the first failure. -/
structure Delivers (p : FilterPipeline K) (inbound : List Inbound) (room : Option Nat)
    (log : List (LoopEvent K)) : Prop where
  inOrder : delivered log <+: expected p .new inbound
  whole : room = none → delivered log = expected p .new inbound
  hooks : handled log <+: (outcomes p .new inbound).flatMap Outcome.log
  closed : ∀ pre post, log = pre ++ .foundClosed :: post → delivered post = [] ∧ handled post = []
  failed : ∀ pre st post, log = pre ++ .put (.error st) :: post → post = []

theorem delivered_trace (os : List (Outcome K)) : delivered (trace os) = (sent os).map .ok := by
  induction os with
  | nil => rfl
  | cons o os ih =>
    have htail : delivered (os.flatMap turnTrace) = (sent os).map .ok := ih
    rw [trace, List.flatMap_cons, delivered_append, delivered_turnTrace, htail, sent_cons,
      List.map_append]

theorem handled_trace (os : List (Outcome K)) : handled (trace os) = os.flatMap Outcome.log := by
  induction os with
  | nil => rfl
  | cons o os ih =>
    have htail : handled (os.flatMap turnTrace) = os.flatMap Outcome.log := ih
    rw [trace, List.flatMap_cons, handled_append, handled_turnTrace, htail, List.flatMap_cons]

theorem delivered_fullTrace : delivered (fullTrace p inbound) = expected p .new inbound := by
  have hrecord : delivered ([.recordRequest] : List (LoopEvent K)) = [] := rfl
  rw [fullTrace, delivered_append, delivered_append, delivered_trace, delivered_puts, hrecord,
    List.append_nil, expected]

theorem handled_fullTrace :
    handled (fullTrace p inbound) = (outcomes p .new inbound).flatMap Outcome.log := by
  have hrecord : handled ([.recordRequest] : List (LoopEvent K)) = [] := rfl
  rw [fullTrace, handled_append, handled_append, handled_trace, handled_puts, hrecord,
    List.append_nil, List.append_nil]

theorem mem_trace {e : LoopEvent K} (h : e ∈ trace os) :
    (∃ event, e = .handler event) ∨ ∃ reply, e = .put (.ok reply) := by
  obtain ⟨o, -, ho⟩ := List.mem_flatMap.mp h
  rcases List.mem_append.mp ho with he | he
  · obtain ⟨event, -, rfl⟩ := List.mem_map.mp he
    exact Or.inl ⟨event, rfl⟩
  · obtain ⟨item, hitem, rfl⟩ := List.mem_map.mp he
    obtain ⟨reply, -, rfl⟩ := List.mem_map.mp hitem
    exact Or.inr ⟨reply, rfl⟩

theorem status_notMem_trace {st : Status} : .put (.error st) ∉ trace os := by
  intro hmem
  rcases mem_trace hmem with ⟨event, he⟩ | ⟨reply, he⟩ <;> cases he

theorem foundClosed_notMem_trace : .foundClosed ∉ trace os := by
  intro hmem
  rcases mem_trace hmem with ⟨event, he⟩ | ⟨reply, he⟩ <;> cases he

/-- In a whole trace a status comes last. -/
theorem fullTrace_status_last {pre post : List (LoopEvent K)} {st : Status}
    (h : fullTrace p inbound = pre ++ .put (.error st) :: post) : post = [] := by
  have hbody : .put (.error st) ∉ trace (outcomes p .new inbound) ++ [.recordRequest] := by
    simp [status_notMem_trace]
  rw [fullTrace] at h
  cases hfail : failure p .new inbound with
  | none =>
    rw [hfail] at h
    have hmem : .put (.error st) ∈ trace (outcomes p .new inbound) ++ [.recordRequest] := by
      have hmiddle : .put (.error st) ∈ pre ++ .put (.error st) :: post := by simp
      rw [← h] at hmiddle
      simpa using hmiddle
    exact (hbody hmem).elim
  | some st' =>
    rw [hfail] at h
    exact ((List.append_cons_inj_of_notMem hbody List.not_mem_nil).mp h).2.2.symm

theorem foundClosed_notMem_fullTrace : .foundClosed ∉ fullTrace p inbound := by
  simp [fullTrace, foundClosed_notMem_trace]

theorem Delivers.of_played {room room' : Option Nat} {b : Bool} {events : List (LoopEvent K)}
    (h : Played room (fullTrace p inbound) b room' events) : Delivers p inbound room events := by
  refine ⟨?_, ?_, ?_, ?_, ?_⟩
  · rw [← delivered_fullTrace]
    exact h.delivered_prefix
  · rintro rfl
    rw [h.eq_of_open.2, delivered_fullTrace]
  · rw [← handled_fullTrace]
    exact h.handled_prefix
  · intro pre post hlog
    obtain rfl := h.after_foundClosed foundClosed_notMem_fullTrace List.not_mem_nil
      ((List.append_nil events).trans hlog)
    exact ⟨rfl, rfl⟩
  · intro pre st post hlog
    cases h with
    | whole htakes => exact fullTrace_status_last hlog
    | closed ht hroom =>
      have hmem : .put (.error st) ∈ pre ++ .put (.error st) :: post := by simp
      rw [← hlog] at hmem
      rcases List.mem_append.mp hmem with hdone | hlast
      · obtain ⟨before, after, rfl⟩ := List.append_of_mem hdone
        rw [List.append_assoc, List.cons_append] at ht
        have hnil := fullTrace_status_last ht
        simp at hnil
      · cases List.mem_singleton.mp hlast

/-- A stream whose consumer left before the messages were through. -/
theorem Delivers.of_stopped {room room' : Option Nat} {played : List (LoopEvent K)}
    (h : Played room (trace (outcomes p .new inbound)) false room' played) :
    Delivers p inbound room (played ++ [.recordRequest]) := by
  have hdelivered := h.delivered_prefix
  have hhandled := h.handled_prefix
  rw [delivered_trace] at hdelivered
  rw [handled_trace] at hhandled
  refine ⟨?_, ?_, ?_, ?_, ?_⟩
  · have hlog : delivered (played ++ [.recordRequest]) = delivered played := by
      rw [delivered_append]
      exact List.append_nil _
    rw [hlog]
    exact hdelivered.trans (List.prefix_append _ _)
  · rintro rfl
    cases h.eq_of_open.1
  · have hlog : handled (played ++ [.recordRequest]) = handled played := by
      rw [handled_append]
      exact List.append_nil _
    rw [hlog]
    exact hhandled
  · intro pre post hlog
    have hlast : .foundClosed ∉ [LoopEvent.recordRequest (K := K)] := by simp
    obtain rfl := h.after_foundClosed foundClosed_notMem_trace hlast hlog
    exact ⟨rfl, rfl⟩
  · intro pre st post hlog
    cases h with
    | closed ht hroom =>
      have hmem : .put (.error st) ∈ pre ++ .put (.error st) :: post := by simp
      rw [← hlog] at hmem
      simp only [List.mem_append, List.mem_singleton, reduceCtorEq, or_false] at hmem
      exact (status_notMem_trace (ht ▸ List.mem_append_left _ hmem)).elim

theorem process_delivers (p : FilterPipeline K) (inbound : List Inbound) (w : Session K)
    (hlog : w.log = []) : Delivers p inbound w.room (exec (process p inbound) w).2.log := by
  obtain ⟨b, s, room, events, hrun, hplayed | ⟨played, hplayed, rfl⟩⟩ := process_run p inbound w
  · rw [hrun, hlog]
    exact .of_played hplayed
  · rw [hrun, hlog]
    exact .of_stopped hplayed

/-- A message without a request is passed over. -/
theorem processMessages_skip (p : FilterPipeline K) (before after : List Inbound) :
    processMessages p (before ++ .ok ⟨none⟩ :: after) = processMessages p (before ++ after) := by
  induction before with
  | nil => rfl
  | cons item before ih =>
    cases item with
    | error e => rfl
    | ok msg =>
      rcases msg with ⟨request⟩
      cases request with
      | none => exact ih
      | some m => simp only [List.cons_append, processMessages, ih]

theorem process_skip (p : FilterPipeline K) (before after : List Inbound) :
    process p (before ++ .ok ⟨none⟩ :: after) = process p (before ++ after) := by
  rw [process, process, handleStream, handleStream, processMessages_skip]

/-- A stream that begins, its consumer taking `room` items. -/
def Session.start (room : Option Nat) : Session K := { state := .new, room := room, log := [] }

/-- The loop over the messages delivers the replies, and leaves the failure to its caller. -/
structure DeliversReplies (p : FilterPipeline K) (inbound : List Inbound) (room : Option Nat)
    (ran : Except Status Unit × Session K) : Prop where
  inOrder : delivered ran.2.log <+: (sent (outcomes p .new inbound)).map .ok
  whole : room = none → delivered ran.2.log = (sent (outcomes p .new inbound)).map .ok
  status : room = none → ran.1 = ending (failure p .new inbound)

theorem processMessages_delivers (p : FilterPipeline K) (inbound : List Inbound)
    (room : Option Nat) :
    DeliversReplies p inbound room (exec (processMessages p inbound) (.start room)) := by
  obtain ⟨b, s, room', events, hrun, hplayed⟩ := processMessages_run p inbound (.start room)
  have hbefore := hplayed.delivered_prefix
  rw [delivered_trace] at hbefore
  rw [hrun]
  refine ⟨hbefore, ?_, ?_⟩
  · rintro rfl
    obtain ⟨-, rfl⟩ := hplayed.eq_of_open
    exact delivered_trace _
  · rintro rfl
    obtain ⟨rfl, -⟩ := hplayed.eq_of_open
    rfl

/-- On every stream and wherever its consumer leaves, the replies are delivered in order, without
loss or duplication, up to the first failure, and messages without a request change nothing. -/
theorem stream_delivers (p : FilterPipeline K) (inbound : List Inbound) (room : Option Nat) :
    Delivers p inbound room (exec (process p inbound) (.start room)).2.log ∧
      DeliversReplies p inbound room (exec (processMessages p inbound) (.start room)) ∧
      ∀ before after, inbound = before ++ .ok ⟨none⟩ :: after →
        process p inbound = process p (before ++ after) ∧
          processMessages p inbound = processMessages p (before ++ after) := by
  refine ⟨process_delivers p inbound (.start room) rfl, processMessages_delivers p inbound room, ?_⟩
  rintro before after rfl
  exact ⟨process_skip p before after, processMessages_skip p before after⟩

end ExtProc
