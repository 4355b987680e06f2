import ExtProc.Task

/-! Every order of steps of a stream's task and its consumer comes to an end. -/
namespace ExtProc

open Exec (exec)

variable {K : Crates} {p : FilterPipeline K} {s : StreamState K} {inbound : List Inbound}
  {responses : List ProcessingResponse}

/-- How many steps handling the inbound items can take, the replies received included. -/
def work (p : FilterPipeline K) (s : StreamState K) : List Inbound → Nat
  | [] => 0
  | .error _ :: _ => 0
  | .ok msg :: inbound =>
    match msg.request with
    | none => work p s inbound + 1
    | some m =>
      match (handle p s m).1.replies with
      | .ok responses => 2 * responses.length + 2 + work p (handle p s m).2 inbound
      | .error _ => 0

def TaskPc.work (p : FilterPipeline K) (s : StreamState K) : TaskPc → Nat
  | .receiving inbound => ExtProc.work p s inbound + 4
  | .sending responses inbound => 2 * responses.length + 1 + ExtProc.work p s inbound + 4
  | .recording _ => 3
  | .reporting _ => 2
  | .ended => 0

/-- A bound on the steps the task and its consumer still take. -/
def StreamTask.rank (p : FilterPipeline K) (t : StreamTask K) : Nat :=
  t.pc.work p t.state + t.channel.queue.length + t.channel.isOpen.toNat

theorem work_of_answered {m : Message} (hok : (handle p s m).1.replies = .ok responses) :
    work p s (.ok ⟨some m⟩ :: inbound) =
      2 * responses.length + 2 + work p (handle p s m).2 inbound := by
  simp [work, hok]

theorem TaskStep.rank_lt {a : Actor} {t u : StreamTask K} (hstep : TaskStep p a t u) :
    u.rank p < t.rank p := by
  cases hstep with
  | finished hpc | broken hpc | recorded hpc | recordedFailure hpc =>
    simp [StreamTask.rank, StreamTask.goTo, hpc, TaskPc.work, work]
  | skipped hpc => simp [StreamTask.rank, StreamTask.goTo, hpc, TaskPc.work, work]
  | answered hpc hok =>
    simp only [StreamTask.rank, StreamTask.answer, hpc, TaskPc.work, work_of_answered hok]
    omega
  | failed hpc he =>
    simp only [StreamTask.rank, StreamTask.answer, hpc, TaskPc.work]
    omega
  | sentAll hpc =>
    simp only [StreamTask.rank, StreamTask.goTo, hpc, TaskPc.work, List.length_nil]
    omega
  | sent hpc hopen hroom =>
    simp only [StreamTask.rank, StreamTask.put, hpc, TaskPc.work, List.length_cons,
      Channel.push_queue, Channel.push_isOpen, List.length_append, List.length_nil]
    omega
  | foundClosed hpc hclosed | reportedInVain hpc hclosed =>
    simp only [StreamTask.rank, StreamTask.goTo, hpc, TaskPc.work]
    omega
  | reported hpc hopen hroom =>
    simp only [StreamTask.rank, StreamTask.put, hpc, TaskPc.work, List.length_cons,
      Channel.push_queue, Channel.push_isOpen, List.length_append, List.length_nil]
    omega
  | taken hq =>
    simp only [StreamTask.rank, Channel.pop_queue, Channel.pop_isOpen, hq, List.length_cons]
    omega
  | left hopen =>
    simp only [StreamTask.rank, Channel.close_queue, Channel.close_isOpen, hopen, Bool.toNat_true,
      Bool.toNat_false, List.length_nil]
    omega

/-- A step of the task or of a consumer that stays. -/
def PatientStep (p : FilterPipeline K) (a : Actor) (t u : StreamTask K) : Prop :=
  TaskStep p a t u ∧ a ≠ .departure

/-- A task that has not ended can go on, or waits for a consumer that can. -/
theorem exists_patientStep {t : StreamTask K} (hpc : t.pc ≠ .ended) :
    ∃ a u, PatientStep p a t u := by
  have htask : ∀ {u : StreamTask K}, TaskStep p .task t u → ∃ a u, PatientStep p a t u :=
    fun hstep => ⟨.task, _, hstep, by simp⟩
  have hsend : (t.channel.isOpen = true → t.channel.queue.length < responseChannelSize →
      ∃ u, TaskStep p .task t u) → (t.channel.isOpen = false → ∃ u, TaskStep p .task t u) →
        ∃ a u, PatientStep p a t u := by
    intro hopen hclosed
    cases ho : t.channel.isOpen with
    | false =>
      obtain ⟨u, hstep⟩ := hclosed ho
      exact htask hstep
    | true =>
      rcases t.channel.room_or_item (by decide) with hroom | ⟨item, items, hq⟩
      · obtain ⟨u, hstep⟩ := hopen ho hroom
        exact htask hstep
      · exact ⟨.consumer, _, .taken hq, by simp⟩
  cases ht : t.pc with
  | ended => exact (hpc ht).elim
  | receiving inbound =>
    cases inbound with
    | nil => exact htask (.finished ht)
    | cons item inbound =>
      cases item with
      | error e => exact htask (.broken ht)
      | ok msg =>
        rcases msg with ⟨request⟩
        cases request with
        | none => exact htask (.skipped ht)
        | some m =>
          cases hreplies : (handle p t.state m).1.replies with
          | ok responses => exact htask (.answered ht hreplies)
          | error e => exact htask (.failed ht hreplies)
  | sending responses inbound =>
    cases responses with
    | nil => exact htask (.sentAll ht)
    | cons resp responses =>
      exact hsend (fun ho hroom => ⟨_, .sent ht ho hroom⟩) fun hc => ⟨_, .foundClosed ht hc⟩
  | recording result =>
    cases result with
    | ok u => exact htask (.recorded ht)
    | error e => exact htask (.recordedFailure ht)
  | reporting e => exact hsend (fun ho hroom => ⟨_, .reported ht ho hroom⟩) fun hc =>
      ⟨_, .reportedInVain ht hc⟩

/-- Where neither the task nor its consumer can go on, both are through. -/
theorem stuck_patient {t : StreamTask K} (h : Steps.Stuck (PatientStep p) t) :
    t.pc = .ended ∧ t.channel.queue = [] := by
  constructor
  · by_contra hpc
    obtain ⟨a, u, hstep⟩ := exists_patientStep (p := p) hpc
    exact h a u hstep
  · cases hq : t.channel.queue with
    | nil => rfl
    | cons item items =>
      have hstep : PatientStep p .consumer t _ := ⟨.taken hq, by simp⟩
      exact (h _ _ hstep).elim

theorem PatientStep.isOpen {a : Actor} {t u : StreamTask K} (hstep : PatientStep p a t u)
    (h : t.channel.isOpen = true) : u.channel.isOpen = true := by
  obtain ⟨hstep, hstays⟩ := hstep
  cases hstep with
  | left hopen => exact (hstays rfl).elim
  | finished | broken | skipped | sentAll | foundClosed | recorded | recordedFailure
  | reportedInVain | answered | failed | sent | reported | taken => exact h

theorem reaches_of_patient {t u : StreamTask K} (h : Steps.Reaches (PatientStep p) t u) :
    Steps.Reaches (TaskStep p) t u := by
  have hsteps : Steps.Any (PatientStep p) ≤ Steps.Any (TaskStep p) := by
    rintro t u ⟨a, hstep, -⟩
    exact ⟨a, hstep⟩
  exact Relation.ReflTransGen.mono hsteps t u h

/-- When the task has ended and nothing waits for a consumer that stays, the consumer has received
what the stream is to deliver. -/
theorem ended_received {t : StreamTask K} (h : Steps.Reaches (TaskStep p) (.spawn inbound) t)
    (hend : t.pc = .ended) (hempty : t.channel.queue = []) (hopen : t.channel.isOpen = true) :
    t.received = expected p .new inbound ∧ t.log = fullTrace p inbound := by
  obtain ⟨hstage, hfifo⟩ := reached_inStage h
  rw [StreamTask.InStage, hend] at hstage
  obtain ⟨room, -, hwhole⟩ := hstage.process_log
  obtain ⟨-, hfull⟩ := hwhole hopen
  have hdelivered := hfifo.whole hopen
  rw [hfull, delivered_fullTrace, hempty, List.append_nil] at hdelivered
  exact ⟨hdelivered.symm, hfull⟩

/-- At the end of a run the consumer stayed for, it has received what the stream is to deliver. -/
theorem received_all {t : StreamTask K}
    (h : Steps.Reaches (PatientStep p) (StreamTask.spawn inbound) t)
    (hstuck : Steps.Stuck (PatientStep p) t) :
    t.pc = .ended ∧ t.received = expected p .new inbound ∧ t.log = fullTrace p inbound := by
  obtain ⟨hend, hempty⟩ := stuck_patient hstuck
  have hopen : t.channel.isOpen = true := h.keeps (P := fun t => t.channel.isOpen = true)
    (fun a t u ho hstep => hstep.isOpen ho) rfl
  exact ⟨hend, ended_received (reaches_of_patient h) hend hempty hopen⟩

/-- No order of steps goes on for ever, with the consumer's departure or without. If the consumer
stays, there is no deadlock: every run can be carried on to its end, and at every end the consumer
has received what the stream is to deliver, all of it and in order. -/
theorem task_delivers_all :
    (WellFounded fun u t : StreamTask K => Steps.Any (TaskStep p) t u) ∧
      ∀ t : StreamTask K, Steps.Reaches (PatientStep p) (StreamTask.spawn inbound) t →
        (∃ u, Steps.Reaches (PatientStep p) t u ∧ Steps.Stuck (PatientStep p) u) ∧
          (Steps.Stuck (PatientStep p) t →
            t.pc = .ended ∧ t.received = expected p .new inbound ∧
              t.log = (exec (process p inbound) (.start none)).2.log) := by
  refine ⟨Steps.wellFounded_of_rank fun a t u hstep => hstep.rank_lt, ?_⟩
  intro t h
  refine ⟨Steps.exists_stuck (fun a t u hstep => hstep.1.rank_lt) t, ?_⟩
  intro hstuck
  rw [process_log_open]
  exact received_all h hstuck

end ExtProc
