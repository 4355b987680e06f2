import ExtProc.Channel
import ExtProc.Coalesce
import ExtProc.Steps

/-! The spawned task of a stream and the consumer of its reply channel, in any order of steps. -/
namespace ExtProc

open Exec (exec exec_bind)

variable {K : Crates} {p : FilterPipeline K} {s : StreamState K} {inbound rest : List Inbound}
  {responses : List ProcessingResponse}

def responseChannelSize : Nat := 16

/-- Where the task stands, with what it still holds. -/
inductive TaskPc where
  | receiving (inbound : List Inbound)
  | sending (responses : List ProcessingResponse) (inbound : List Inbound)
  | recording (result : Except Status Unit)
  | reporting (e : Status)
  | ended

structure StreamTask (K : Crates) where
  pc : TaskPc
  state : StreamState K
  channel : Channel Outbound responseChannelSize
  received : List Outbound
  log : List (LoopEvent K)

/-- The task as `process` spawns it. -/
def StreamTask.spawn (inbound : List Inbound) : StreamTask K where
  pc := .receiving inbound
  state := .new
  channel := .new
  received := []
  log := []

inductive Actor where
  | task
  | consumer
  | departure
  deriving DecidableEq

namespace StreamTask

/-- The task logs events and goes on elsewhere. -/
def goTo (t : StreamTask K) (pc : TaskPc) (events : List (LoopEvent K)) : StreamTask K :=
  { t with pc := pc, log := t.log ++ events }

/-- The task puts an item on its channel. -/
def put (t : StreamTask K) (pc : TaskPc) (item : Outbound)
    (h : t.channel.queue.length < responseChannelSize) : StreamTask K :=
  { t with pc := pc, channel := t.channel.push item h, log := t.log ++ [.put item] }

def answer (t : StreamTask K) (p : FilterPipeline K) (m : Message) (pc : TaskPc) : StreamTask K :=
  { t with
    pc := pc
    state := (handle p t.state m).2
    log := t.log ++ (handle p t.state m).1.log.map .handler }

end StreamTask

/-- A step of the task, up to its next `await` that may wait; of the consumer, that takes an item;
or of the consumer that leaves. A send waits while the channel is full and open. -/
inductive TaskStep (p : FilterPipeline K) : Actor → StreamTask K → StreamTask K → Prop
  | finished {t : StreamTask K} (hpc : t.pc = .receiving []) :
      TaskStep p .task t (t.goTo (.recording (.ok ())) [])
  | broken {t : StreamTask K} {e : String} {inbound : List Inbound}
      (hpc : t.pc = .receiving (.error e :: inbound)) :
      TaskStep p .task t (t.goTo (.recording (.error (Status.internal e))) [])
  | skipped {t : StreamTask K} {inbound : List Inbound}
      (hpc : t.pc = .receiving (.ok ⟨none⟩ :: inbound)) :
      TaskStep p .task t (t.goTo (.receiving inbound) [])
  | answered {t : StreamTask K} {m : Message} {inbound : List Inbound}
      {responses : List ProcessingResponse} (hpc : t.pc = .receiving (.ok ⟨some m⟩ :: inbound))
      (hok : (handle p t.state m).1.replies = .ok responses) :
      TaskStep p .task t (t.answer p m (.sending responses inbound))
  | failed {t : StreamTask K} {m : Message} {inbound : List Inbound} {e : Status}
      (hpc : t.pc = .receiving (.ok ⟨some m⟩ :: inbound))
      (he : (handle p t.state m).1.replies = .error e) :
      TaskStep p .task t (t.answer p m (.recording (.error e)))
  | sentAll {t : StreamTask K} {inbound : List Inbound} (hpc : t.pc = .sending [] inbound) :
      TaskStep p .task t (t.goTo (.receiving inbound) [])
  | sent {t : StreamTask K} {inbound : List Inbound} {resp : ProcessingResponse}
      {responses : List ProcessingResponse} (hpc : t.pc = .sending (resp :: responses) inbound)
      (hopen : t.channel.isOpen = true)
      (hroom : t.channel.queue.length < responseChannelSize) :
      TaskStep p .task t (t.put (.sending responses inbound) (.ok resp) hroom)
  | foundClosed {t : StreamTask K} {inbound : List Inbound} {resp : ProcessingResponse}
      {responses : List ProcessingResponse} (hpc : t.pc = .sending (resp :: responses) inbound)
      (hclosed : t.channel.isOpen = false) :
      TaskStep p .task t (t.goTo (.recording (.ok ())) [.foundClosed])
  | recorded {t : StreamTask K} (hpc : t.pc = .recording (.ok ())) :
      TaskStep p .task t (t.goTo .ended [.recordRequest])
  | recordedFailure {t : StreamTask K} {e : Status} (hpc : t.pc = .recording (.error e)) :
      TaskStep p .task t (t.goTo (.reporting e) [.recordRequest])
  | reported {t : StreamTask K} {e : Status} (hpc : t.pc = .reporting e)
      (hopen : t.channel.isOpen = true)
      (hroom : t.channel.queue.length < responseChannelSize) :
      TaskStep p .task t (t.put .ended (.error e) hroom)
  | reportedInVain {t : StreamTask K} {e : Status} (hpc : t.pc = .reporting e)
      (hclosed : t.channel.isOpen = false) :
      TaskStep p .task t (t.goTo .ended [.foundClosed])
  | taken {t : StreamTask K} {item : Outbound} {items : List Outbound}
      (hq : t.channel.queue = item :: items) :
      TaskStep p .consumer t
        { t with channel := t.channel.pop hq, received := t.received ++ [item] }
  | left {t : StreamTask K} (hopen : t.channel.isOpen = true) :
      TaskStep p .departure t { t with channel := t.channel.close }

/-- While the consumer is there, what was put is what it received and what waits for it; what it
received stays a beginning of what was put. -/
structure StreamTask.Fifo (t : StreamTask K) : Prop where
  whole : t.channel.isOpen = true → delivered t.log = t.received ++ t.channel.queue
  received : t.received ++ t.channel.queue <+: delivered t.log

@[simp] theorem delivered_nil : delivered ([] : List (LoopEvent K)) = [] := rfl
@[simp] theorem goTo_nil_log {t : StreamTask K} {pc : TaskPc} : (t.goTo pc []).log = t.log :=
  List.append_nil _

theorem StreamTask.Fifo.spawn : (StreamTask.spawn inbound : StreamTask K).Fifo :=
  ⟨fun _ => rfl, List.prefix_rfl⟩

theorem delivered_goTo {t : StreamTask K} {pc : TaskPc} {events : List (LoopEvent K)}
    (h : delivered events = []) : delivered (t.goTo pc events).log = delivered t.log := by
  have hlog : (t.goTo pc events).log = t.log ++ events := rfl
  rw [hlog, delivered_append, h, List.append_nil]

theorem StreamTask.Fifo.goTo {t : StreamTask K} {pc : TaskPc} {events : List (LoopEvent K)}
    (h : t.Fifo) (hev : delivered events = []) : (t.goTo pc events).Fifo := by
  have hlog : delivered (t.goTo pc events).log = delivered t.log := delivered_goTo hev
  exact ⟨fun hopen => hlog.trans (h.whole hopen), hlog ▸ h.received⟩

theorem TaskStep.fifo {a : Actor} {t u : StreamTask K} (hstep : TaskStep p a t u) (h : t.Fifo) :
    u.Fifo := by
  cases hstep with
  | finished | broken | skipped | sentAll | foundClosed | recorded | recordedFailure
  | reportedInVain => exact h.goTo rfl
  | answered | failed =>
    have hhandlers := delivered_handlers (K := K)
    constructor
    · intro hopen
      have hwhole := h.whole hopen
      simpa [StreamTask.answer, hhandlers] using hwhole
    · have hreceived := h.received
      simpa [StreamTask.answer, hhandlers] using hreceived
  | sent hpc hopen hroom | reported hpc hopen hroom =>
    have hwhole := h.whole hopen
    constructor
    · intro _
      simp [StreamTask.put, hwhole]
    · simp [StreamTask.put, hwhole]
  | taken hq =>
    constructor
    · intro hopen
      have hwhole := h.whole hopen
      rw [hq] at hwhole
      simpa using hwhole
    · have hreceived := h.received
      rw [hq] at hreceived
      simpa using hreceived
  | left hopen =>
    constructor
    · intro hclosed
      cases hclosed
    · have hreceived := (List.prefix_append _ _).trans h.received
      simpa using hreceived

/-- What the task has logged, and what is still to come: the messages left and their failure, or
the end of a whole stream, or the end of a stream whose consumer was found gone. -/
inductive Stage (p : FilterPipeline K) (inbound : List Inbound) :
    TaskPc → StreamState K → Bool → List (LoopEvent K) → Prop
  | receiving {rest : List Inbound} {s : StreamState K} {isOpen : Bool} {log : List (LoopEvent K)}
      (hlog : log ++ trace (outcomes p s rest) = trace (outcomes p .new inbound))
      (hf : failure p s rest = failure p .new inbound) :
      Stage p inbound (.receiving rest) s isOpen log
  | sending {responses : List ProcessingResponse} {rest : List Inbound} {s : StreamState K}
      {isOpen : Bool} {log : List (LoopEvent K)}
      (hlog : log ++ ((responses.map Except.ok).map .put ++ trace (outcomes p s rest)) =
        trace (outcomes p .new inbound))
      (hf : failure p s rest = failure p .new inbound) :
      Stage p inbound (.sending responses rest) s isOpen log
  | recording {result : Except Status Unit} {s : StreamState K} {isOpen : Bool}
      {log : List (LoopEvent K)} (hresult : result = ending (failure p .new inbound))
      (hlog : log = trace (outcomes p .new inbound)) :
      Stage p inbound (.recording result) s isOpen log
  | stopped {s : StreamState K} {isOpen : Bool} {log done after : List (LoopEvent K)}
      {item : Outbound} (hclosed : isOpen = false)
      (htrace : trace (outcomes p .new inbound) = done ++ .put item :: after)
      (hlog : log = done ++ [.foundClosed]) :
      Stage p inbound (.recording (.ok ())) s isOpen log
  | reporting {e : Status} {s : StreamState K} {isOpen : Bool} {log : List (LoopEvent K)}
      (hf : failure p .new inbound = some e)
      (hlog : log = trace (outcomes p .new inbound) ++ [.recordRequest]) :
      Stage p inbound (.reporting e) s isOpen log
  | ended {s : StreamState K} {isOpen : Bool} {log : List (LoopEvent K)}
      (hlog : log = fullTrace p inbound) : Stage p inbound .ended s isOpen log
  | endedStopped {s : StreamState K} {isOpen : Bool} {log done after : List (LoopEvent K)}
      {item : Outbound} (hclosed : isOpen = false)
      (htrace : trace (outcomes p .new inbound) = done ++ .put item :: after)
      (hlog : log = done ++ [.foundClosed] ++ [.recordRequest]) :
      Stage p inbound .ended s isOpen log
  | endedInVain {e : Status} {s : StreamState K} {isOpen : Bool} {log : List (LoopEvent K)}
      (hclosed : isOpen = false) (hf : failure p .new inbound = some e)
      (hlog : log = trace (outcomes p .new inbound) ++ [.recordRequest] ++ [.foundClosed]) :
      Stage p inbound .ended s isOpen log

def StreamTask.InStage (p : FilterPipeline K) (inbound : List Inbound) (t : StreamTask K) : Prop :=
  Stage p inbound t.pc t.state t.channel.isOpen t.log

theorem StreamTask.InStage.spawn : (StreamTask.spawn inbound : StreamTask K).InStage p inbound :=
  .receiving rfl rfl

/-- A stage does not depend on the consumer being there. -/
theorem Stage.left {pc : TaskPc} {isOpen : Bool} {log : List (LoopEvent K)}
    (h : Stage p inbound pc s isOpen log) : Stage p inbound pc s false log := by
  cases h with
  | receiving hlog hf => exact .receiving hlog hf
  | sending hlog hf => exact .sending hlog hf
  | recording hresult hlog => exact .recording hresult hlog
  | stopped hclosed htrace hlog => exact .stopped rfl htrace hlog
  | reporting hf hlog => exact .reporting hf hlog
  | ended hlog => exact .ended hlog
  | endedStopped hclosed htrace hlog => exact .endedStopped rfl htrace hlog
  | endedInVain hclosed hf hlog => exact .endedInVain rfl hf hlog

theorem trace_cons (o : Outcome K) (os : List (Outcome K)) :
    trace (o :: os) = turnTrace o ++ trace os := rfl

theorem TaskStep.inStage {a : Actor} {t u : StreamTask K} (hstep : TaskStep p a t u)
    (h : t.InStage p inbound) : u.InStage p inbound := by
  rw [StreamTask.InStage] at h
  cases hstep with
  | finished hpc =>
    rw [hpc] at h
    cases h with
    | receiving hlog hf =>
      refine .recording ?_ ?_
      · rw [← hf]
        rfl
      · rw [← hlog]
        rfl
  | broken hpc =>
    rw [hpc] at h
    cases h with
    | receiving hlog hf =>
      refine .recording ?_ ?_
      · rw [← hf]
        rfl
      · rw [← hlog]
        rfl
  | skipped hpc =>
    rw [hpc] at h
    cases h with
    | receiving hlog hf => exact .receiving (by rw [goTo_nil_log]; exact hlog) hf
  | answered hpc hok =>
    rw [hpc] at h
    cases h with
    | receiving hlog hf =>
      rw [outcomes_of_answered hok, trace_cons, turnTrace, sent_of_answered hok] at hlog
      rw [failure_of_answered hok] at hf
      refine .sending ?_ hf
      simpa only [StreamTask.answer, List.append_assoc] using hlog
  | failed hpc he =>
    rw [hpc] at h
    cases h with
    | receiving hlog hf =>
      rw [outcomes_of_refused he, trace_cons, turnTrace_of_refused he] at hlog
      rw [failure_of_refused he] at hf
      refine .recording ?_ ?_
      · rw [← hf]
        rfl
      · rw [← hlog]
        exact congrArg (t.log ++ ·) (List.append_nil _).symm
  | sentAll hpc =>
    rw [hpc] at h
    cases h with
    | sending hlog hf => exact .receiving (by rw [goTo_nil_log]; exact hlog) hf
  | sent hpc hopen hroom =>
    rw [hpc] at h
    cases h with
    | sending hlog hf =>
      refine .sending ?_ hf
      simpa [StreamTask.put] using hlog
  | foundClosed hpc hclosed =>
    rw [hpc] at h
    cases h with
    | sending hlog hf => exact .stopped hclosed hlog.symm rfl
  | recorded hpc =>
    rw [hpc] at h
    cases h with
    | recording hresult hlog =>
      cases hfail : failure p .new inbound with
      | none =>
        refine .ended ?_
        rw [fullTrace, hfail, ← hlog]
        exact (List.append_nil _).symm
      | some e =>
        rw [hfail] at hresult
        cases hresult
    | stopped hclosed htrace hlog =>
      refine .endedStopped hclosed htrace ?_
      rw [← hlog]
      rfl
  | recordedFailure hpc =>
    rw [hpc] at h
    cases h with
    | recording hresult hlog =>
      cases hfail : failure p .new inbound with
      | none =>
        rw [hfail] at hresult
        cases hresult
      | some e =>
        rw [hfail] at hresult
        cases hresult
        refine .reporting hfail ?_
        rw [← hlog]
        rfl
  | reported hpc hopen hroom =>
    rw [hpc] at h
    cases h with
    | reporting hf hlog =>
      refine .ended ?_
      rw [fullTrace, hf, ← hlog]
      rfl
  | reportedInVain hpc hclosed =>
    rw [hpc] at h
    cases h with
    | reporting hf hlog =>
      refine .endedInVain hclosed hf ?_
      rw [← hlog]
      rfl
  | taken hq => exact h
  | left hopen => exact h.left

theorem process_log_open :
    (exec (process p inbound) (.start none)).2.log = fullTrace p inbound := by
  obtain ⟨b, s, room, events, hrun, hplayed | ⟨played, hplayed, -⟩⟩ :=
    process_run p inbound (.start none)
  · rw [hrun, hplayed.eq_of_open.2]
    rfl
  · cases hplayed.eq_of_open.1

theorem process_log_stopped {done after : List (LoopEvent K)} {item : Outbound}
    (ht : trace (outcomes p .new inbound) = done ++ .put item :: after) :
    (exec (process p inbound) (.start (some (delivered done).length))).2.log =
      done ++ [.foundClosed] ++ [.recordRequest] := by
  obtain ⟨b, s, room, events, hrun, hplayed⟩ :=
    handleStream_run p inbound (.start (some (delivered done).length))
  have hclosed : Played (some (delivered done).length) (trace (outcomes p .new inbound)) false
      (some 0) (done ++ [.foundClosed]) := .closed ht rfl
  obtain ⟨rfl, rfl, rfl⟩ := hplayed.unique hclosed
  rw [process, Exec.exec_tryCatch, hrun]
  simp [ending, Session.start]

theorem process_log_inVain {e : Status} (hf : failure p .new inbound = some e) :
    (exec (process p inbound)
        (.start (some (delivered (trace (outcomes p .new inbound))).length))).2.log =
      trace (outcomes p .new inbound) ++ [.recordRequest] ++ [.foundClosed] := by
  have htakes : Takes (some (delivered (trace (outcomes p .new inbound))).length)
      (delivered (trace (outcomes p .new inbound))).length := by
    intro k hk
    cases hk
    exact Nat.le_refl _
  obtain ⟨b, s, room, events, hrun, hplayed⟩ :=
    handleStream_run p inbound (.start (some (delivered (trace (outcomes p .new inbound))).length))
  obtain ⟨rfl, rfl, rfl⟩ := hplayed.unique (.whole htakes)
  have hspent : spend (some (delivered (trace (outcomes p .new inbound))).length)
      (delivered (trace (outcomes p .new inbound))).length = some 0 :=
    congrArg some (Nat.sub_self _)
  simp only [Session.start] at hrun hspent
  simp [process, hrun, hf, ending, Session.start, exec_bind, Loop.send, hspent]

/-- A task that has ended logged what the program of its stream logs. -/
theorem Stage.process_log {isOpen : Bool} {log : List (LoopEvent K)}
    (h : Stage p inbound .ended s isOpen log) :
    ∃ room, log = (exec (process p inbound) (.start room)).2.log ∧
      (isOpen = true → room = none ∧ log = fullTrace p inbound) := by
  cases h with
  | ended hlog => exact ⟨none, hlog.trans process_log_open.symm, fun _ => ⟨rfl, hlog⟩⟩
  | endedStopped hclosed htrace hlog =>
    refine ⟨_, hlog.trans (process_log_stopped htrace).symm, ?_⟩
    intro hopen
    rw [hclosed] at hopen
    cases hopen
  | endedInVain hclosed hf hlog =>
    refine ⟨_, hlog.trans (process_log_inVain hf).symm, ?_⟩
    intro hopen
    rw [hclosed] at hopen
    cases hopen

theorem delivered_trace_prefix_expected :
    delivered (trace (outcomes p .new inbound)) <+: expected p .new inbound := by
  rw [delivered_trace, expected]
  exact List.prefix_append _ _

/-- What the task has put on the channel is a beginning of what the stream is to deliver. -/
theorem Stage.delivered_prefix {pc : TaskPc} {isOpen : Bool} {log : List (LoopEvent K)}
    (h : Stage p inbound pc s isOpen log) : delivered log <+: expected p .new inbound := by
  have htrace : ∀ log' : List (LoopEvent K), log ++ log' = trace (outcomes p .new inbound) →
      delivered log <+: expected p .new inbound := by
    intro log' hlog
    refine List.IsPrefix.trans ?_ delivered_trace_prefix_expected
    rw [← hlog, delivered_append]
    exact List.prefix_append _ _
  have hstopped : ∀ (done after log' : List (LoopEvent K)) (item : Outbound),
      trace (outcomes p .new inbound) = done ++ .put item :: after → log = done ++ log' →
        delivered log' = [] → delivered log <+: expected p .new inbound := by
    rintro done after log' item ht rfl hnil
    refine List.IsPrefix.trans ?_ delivered_trace_prefix_expected
    rw [ht, delivered_append, delivered_append, hnil, List.append_nil]
    exact List.prefix_append _ _
  cases h with
  | receiving hlog hf => exact htrace _ hlog
  | sending hlog hf => exact htrace _ hlog
  | recording hresult hlog => exact htrace [] ((List.append_nil _).trans hlog)
  | stopped hclosed ht hlog => exact hstopped _ _ _ _ ht hlog rfl
  | reporting hf hlog =>
    rw [hlog, delivered_append]
    exact (List.append_nil _).symm ▸ delivered_trace_prefix_expected
  | ended hlog =>
    rw [hlog, delivered_fullTrace]
  | endedStopped hclosed ht hlog =>
    exact hstopped _ _ _ _ ht (hlog.trans (List.append_assoc _ _ _)) rfl
  | endedInVain hclosed hf hlog =>
    rw [hlog, List.append_assoc, delivered_append]
    exact (List.append_nil _).symm ▸ delivered_trace_prefix_expected

/-- What holds of a stream at every moment, whoever took which step. -/
theorem reached_inStage {t : StreamTask K}
    (h : Steps.Reaches (TaskStep p) (StreamTask.spawn inbound) t) :
    t.InStage p inbound ∧ t.Fifo := by
  refine h.keeps (P := fun t => t.InStage p inbound ∧ t.Fifo) ?_ ⟨.spawn, .spawn⟩
  rintro a t u ⟨hstage, hfifo⟩ hstep
  exact ⟨hstep.inStage hstage, hstep.fifo hfifo⟩

/-- In every order of the steps of the task, its consumer and the consumer's departure, the
consumer receives a beginning of what the stream is to deliver; while it stays, nothing it has not
received is lost; and a task that ended did what the sequential program does on a channel that
takes some number of items, on an open one if the consumer stayed. -/
theorem task_refines_process {t : StreamTask K}
    (h : Steps.Reaches (TaskStep p) (StreamTask.spawn inbound) t) :
    t.received <+: expected p .new inbound ∧
      (t.channel.isOpen = true → delivered t.log = t.received ++ t.channel.queue) ∧
      (t.pc = .ended → ∃ room, t.log = (exec (process p inbound) (.start room)).2.log ∧
        (t.channel.isOpen = true →
          room = none ∧ t.received ++ t.channel.queue = expected p .new inbound)) := by
  obtain ⟨hstage, hfifo⟩ := reached_inStage h
  have hreceived := (List.prefix_append _ _).trans hfifo.received
  refine ⟨hreceived.trans hstage.delivered_prefix, hfifo.whole, ?_⟩
  intro hend
  rw [StreamTask.InStage, hend] at hstage
  obtain ⟨room, hlog, hopen⟩ := hstage.process_log
  refine ⟨room, hlog, ?_⟩
  intro hstays
  obtain ⟨hroom, hfull⟩ := hopen hstays
  refine ⟨hroom, ?_⟩
  rw [← hfifo.whole hstays, hfull, delivered_fullTrace]

section Spawned

def openedInbound : List Inbound := [.ok ⟨some (.requestHeaders ⟨none, false⟩)⟩]

/-- The task about to send its reply to the request headers. -/
def repliesToOpened : StreamTask httpCrates :=
  (StreamTask.spawn openedInbound).answer passAll (.requestHeaders ⟨none, false⟩)
    (.sending [Reply.requestHeaders none] [])

def sentToOpened : StreamTask httpCrates :=
  repliesToOpened.put (.sending [] []) (.ok (Reply.requestHeaders none)) (by decide)

theorem opened_received : ∃ t : StreamTask httpCrates,
    Steps.Reaches (TaskStep passAll) (.spawn openedInbound) t ∧
      t.received = [.ok (Reply.requestHeaders none)] ∧
      t.received <+: expected passAll .new openedInbound := by
  have hanswered : TaskStep passAll .task (.spawn openedInbound) repliesToOpened :=
    .answered rfl rfl
  have hsent : TaskStep passAll .task repliesToOpened sentToOpened := .sent rfl rfl (by decide)
  have htaken : TaskStep passAll .consumer sentToOpened _ := .taken rfl
  have hstart : Steps.Reaches (TaskStep passAll) (.spawn openedInbound) _ :=
    Relation.ReflTransGen.refl
  have hreach := ((hstart.next hanswered).next hsent).next htaken
  exact ⟨_, hreach, rfl, (task_refines_process hreach).1⟩

end Spawned

end ExtProc
