import Mathlib.Algebra.BigOperators.Group.Finset.Piecewise
import ExtProc.Counter
import ExtProc.Progress

/-! The streams of a server side by side, and the counters they share. -/
namespace ExtProc

open Exec (exec)

variable {K : Crates} {p : FilterPipeline K} {ι : Type} {inbound : ι → List Inbound}
  {log log' : List (LoopEvent K)}

/-- The counters of the metrics recorder, from when it is installed on; the histogram of durations
is left out. -/
structure Metrics where
  requestsTotal : Nat := 0
  immediateResponsesTotal : Nat := 0

namespace Metrics

def recordRequest (m : Metrics) : Metrics := { m with requestsTotal := m.requestsTotal + 1 }

def recordImmediateResponse (m : Metrics) : Metrics :=
  { m with immediateResponsesTotal := m.immediateResponsesTotal + 1 }

def record (m : Metrics) : LoopEvent K → Metrics
  | .recordRequest => m.recordRequest
  | .handler .recordImmediateResponse => m.recordImmediateResponse
  | _ => m

end Metrics

structure Service (K : Crates) (ι : Type) where
  tasks : ι → StreamTask K
  metrics : Metrics

def Service.start (inbound : ι → List Inbound) : Service K ι where
  tasks i := .spawn (inbound i)
  metrics := {}

/-- One stream takes a step, and what it logs there reaches the counters. -/
inductive ServiceStep [DecidableEq ι] (p : FilterPipeline K) :
    ι × Actor → Service K ι → Service K ι → Prop
  | one {v : Service K ι} (i : ι) {a : Actor} {t : StreamTask K} {events : List (LoopEvent K)}
      (h : TaskStep p a (v.tasks i) t) (hlog : t.log = (v.tasks i).log ++ events) :
      ServiceStep p (i, a) v
        { tasks := Function.update v.tasks i t, metrics := events.foldl Metrics.record v.metrics }

def LoopEvent.isRecordRequest : LoopEvent K → Bool
  | .recordRequest => true
  | _ => false

def requestsIn (log : List (LoopEvent K)) : Nat := log.countP LoopEvent.isRecordRequest

def immediatesIn (log : List (LoopEvent K)) : Nat := (handled log).countP Event.isRecord

@[simp] theorem requestsIn_append (log log' : List (LoopEvent K)) :
    requestsIn (log ++ log') = requestsIn log + requestsIn log' := List.countP_append
@[simp] theorem immediatesIn_append (log log' : List (LoopEvent K)) :
    immediatesIn (log ++ log') = immediatesIn log + immediatesIn log' := by
  rw [immediatesIn, handled_append, List.countP_append]
  rfl

theorem record_eq (m : Metrics) (e : LoopEvent K) :
    m.record e =
      ⟨m.requestsTotal + requestsIn [e], m.immediateResponsesTotal + immediatesIn [e]⟩ := by
  cases e with
  | handler event => cases event <;> rfl
  | put item => rfl
  | foundClosed => rfl
  | recordRequest => rfl

/-- The counters after some events. -/
theorem foldl_record (m : Metrics) (events : List (LoopEvent K)) :
    events.foldl Metrics.record m =
      ⟨m.requestsTotal + requestsIn events, m.immediateResponsesTotal + immediatesIn events⟩ := by
  induction events generalizing m with
  | nil => rfl
  | cons e events ih =>
    have hrequests : requestsIn (e :: events) = requestsIn [e] + requestsIn events :=
      requestsIn_append [e] events
    have himmediates : immediatesIn (e :: events) = immediatesIn [e] + immediatesIn events :=
      immediatesIn_append [e] events
    rw [List.foldl_cons, ih, record_eq, hrequests, himmediates, Nat.add_assoc, Nat.add_assoc]

theorem requestsIn_trace (os : List (Outcome K)) : requestsIn (trace os) = 0 := by
  refine List.countP_eq_zero.mpr ?_
  intro e he
  rcases mem_trace he with ⟨event, rfl⟩ | ⟨reply, rfl⟩ <;> simp [LoopEvent.isRecordRequest]

theorem requestsIn_of_prefix_trace {os : List (Outcome K)} (h : log ++ log' = trace os) :
    requestsIn log = 0 := by
  have hsum : requestsIn log + requestsIn log' = 0 := by
    rw [← requestsIn_append, h, requestsIn_trace]
  omega

/-- Behind the loop of the stream. -/
def TaskPc.isRecorded : TaskPc → Bool
  | .reporting _ | .ended => true
  | _ => false

/-- A stream is counted once, when its loop is over, however that came about. -/
theorem Stage.requestsIn {pc : TaskPc} {s : StreamState K} {isOpen : Bool} {inbound : List Inbound}
    (h : Stage p inbound pc s isOpen log) : requestsIn log = pc.isRecorded.toNat := by
  have hrecord : ExtProc.requestsIn ([.recordRequest] : List (LoopEvent K)) = 1 := rfl
  have hclosed : ExtProc.requestsIn ([.foundClosed] : List (LoopEvent K)) = 0 := rfl
  cases h with
  | receiving hlog hf => exact requestsIn_of_prefix_trace hlog
  | sending hlog hf => exact requestsIn_of_prefix_trace hlog
  | recording hresult hlog => exact hlog ▸ requestsIn_trace _
  | stopped _ ht hlog =>
    rw [hlog, requestsIn_append, requestsIn_of_prefix_trace ht.symm, hclosed]
    rfl
  | reporting hf hlog =>
    rw [hlog, requestsIn_append, requestsIn_trace, hrecord]
    rfl
  | ended hlog =>
    have hstatus : ExtProc.requestsIn (((failure p .new inbound).toList.map Except.error).map
        LoopEvent.put : List (LoopEvent K)) = 0 := by
      refine List.countP_eq_zero.mpr ?_
      intro e he
      obtain ⟨item, -, rfl⟩ := List.mem_map.mp he
      simp [LoopEvent.isRecordRequest]
    rw [hlog, fullTrace, requestsIn_append, requestsIn_append, requestsIn_trace, hrecord, hstatus]
    rfl
  | endedStopped _ ht hlog =>
    rw [hlog, requestsIn_append, requestsIn_append, requestsIn_of_prefix_trace ht.symm, hclosed,
      hrecord]
    rfl
  | endedInVain _ hf hlog =>
    rw [hlog, requestsIn_append, requestsIn_append, requestsIn_trace, hrecord, hclosed]
    rfl

theorem TaskStep.log_grows {a : Actor} {t u : StreamTask K} (hstep : TaskStep p a t u) :
    ∃ events, u.log = t.log ++ events := by
  cases hstep with
  | finished | broken | skipped | sentAll | foundClosed | recorded | recordedFailure
  | reportedInVain => exact ⟨_, rfl⟩
  | answered | failed => exact ⟨_, rfl⟩
  | sent | reported => exact ⟨_, rfl⟩
  | taken | left => exact ⟨[], (List.append_nil _).symm⟩

section Runs
variable [DecidableEq ι] {v w : Service K ι} {ia : ι × Actor}

theorem ServiceStep.beside (h : ServiceStep p ia v w) :
    Steps.Beside (TaskStep p) ia v.tasks w.tasks := by
  cases h with
  | one i h hlog => exact .one i h

theorem reaches_beside (h : Steps.Reaches (ServiceStep p) v w) :
    Steps.Reaches (Steps.Beside (TaskStep p)) v.tasks w.tasks := by
  induction h with
  | refl => exact .refl
  | tail hreach hnext ih =>
    obtain ⟨ia, hstep⟩ := hnext
    exact ih.next hstep.beside

/-- The counters are what the logs of the streams add up to. -/
def Service.Counted [Fintype ι] (v : Service K ι) : Prop :=
  v.metrics.requestsTotal = ∑ i, requestsIn (v.tasks i).log ∧
    v.metrics.immediateResponsesTotal = ∑ i, immediatesIn (v.tasks i).log

theorem ServiceStep.counted [Fintype ι] (h : ServiceStep p ia v w) (hv : v.Counted) :
    w.Counted := by
  obtain ⟨hrequests, himmediates⟩ := hv
  cases h with
  | @one v i a t events h hlog =>
    have hr : requestsIn t.log = requestsIn (v.tasks i).log + requestsIn events := by
      rw [hlog, requestsIn_append]
    have hi : immediatesIn t.log = immediatesIn (v.tasks i).log + immediatesIn events := by
      rw [hlog, immediatesIn_append]
    have hsumr := Steps.sum_update_add (f := fun t : StreamTask K => requestsIn t.log) v.tasks hr
    have hsumi := Steps.sum_update_add (f := fun t : StreamTask K => immediatesIn t.log) v.tasks hi
    rw [Service.Counted, foldl_record, hrequests, himmediates]
    exact ⟨hsumr.symm, hsumi.symm⟩

theorem service_counted [Fintype ι] (h : Steps.Reaches (ServiceStep p) (.start inbound) v) :
    v.Counted := by
  refine h.keeps (P := fun v => v.Counted) (fun ia v w hv hstep => hstep.counted hv) ?_
  have hnone : ∀ i, requestsIn ((Service.start inbound : Service K ι).tasks i).log = 0 ∧
      immediatesIn ((Service.start inbound : Service K ι).tasks i).log = 0 := fun i => ⟨rfl, rfl⟩
  constructor
  · exact (Finset.sum_eq_zero fun i _ => (hnone i).1).symm
  · exact (Finset.sum_eq_zero fun i _ => (hnone i).2).symm

/-- Streams do not disturb each other: in every order of steps, each stands where it could stand
alone, and its consumer received a beginning of what its own messages are answered with. The
counters show each stream whose loop is over once, and the rejections of all streams together. -/
theorem streams_isolated [Fintype ι] (h : Steps.Reaches (ServiceStep p) (.start inbound) v) :
    (∀ i, Steps.Reaches (TaskStep p) (.spawn (inbound i)) (v.tasks i) ∧
        (v.tasks i).received <+: expected p .new (inbound i)) ∧
      v.metrics.requestsTotal =
        (Finset.univ.filter fun i => (v.tasks i).pc.isRecorded = true).card ∧
      v.metrics.immediateResponsesTotal = ∑ i, immediatesIn (v.tasks i).log := by
  have halone : ∀ i, Steps.Reaches (TaskStep p) (.spawn (inbound i)) (v.tasks i) :=
    fun i => (reaches_beside h).alone i
  obtain ⟨hrequests, himmediates⟩ := service_counted h
  refine ⟨fun i => ⟨halone i, ?_⟩, ?_, himmediates⟩
  · obtain ⟨hstage, hfifo⟩ := reached_inStage (halone i)
    exact ((List.prefix_append _ _).trans hfifo.received).trans hstage.delivered_prefix
  · have hone : ∀ i, requestsIn (v.tasks i).log = (v.tasks i).pc.isRecorded.toNat :=
      fun i => (reached_inStage (halone i)).1.requestsIn
    rw [hrequests, Finset.card_filter]
    refine Finset.sum_congr rfl ?_
    intro i _
    rw [hone i]
    cases (v.tasks i).pc.isRecorded <;> rfl

section Pair

/-- Two streams, one of them without messages. -/
def pairInbound : Bool → List Inbound
  | true => openedInbound
  | false => []

theorem pair_isolated : ∃ v : Service httpCrates Bool,
    Steps.Reaches (ServiceStep passAll) (.start pairInbound) v ∧
      (v.tasks true).pc = .receiving openedInbound ∧
      v.metrics.requestsTotal =
        (Finset.univ.filter fun i => (v.tasks i).pc.isRecorded = true).card ∧
      v.metrics.requestsTotal = 1 := by
  have hfinished : ServiceStep passAll (false, .task) (.start pairInbound) _ :=
    .one false (.finished rfl) rfl
  have hrecorded := ServiceStep.one (p := passAll)
    (v := ⟨Function.update (Service.start pairInbound : Service httpCrates Bool).tasks false
      ((StreamTask.spawn []).goTo (.recording (.ok ())) []), {}⟩) false (.recorded rfl) rfl
  have hstart : Steps.Reaches (ServiceStep passAll) (.start pairInbound) _ :=
    Relation.ReflTransGen.refl
  have hreach := (hstart.next hfinished).next hrecorded
  exact ⟨_, hreach, rfl, (streams_isolated hreach).2.1, rfl⟩

end Pair

/-- Some stream takes a step, and no consumer leaves. -/
def PatientServiceStep (p : FilterPipeline K) (ia : ι × Actor) (v w : Service K ι) : Prop :=
  ServiceStep p ia v w ∧ ia.2 ≠ .departure

theorem reaches_of_patientService (h : Steps.Reaches (PatientServiceStep p) v w) :
    Steps.Reaches (ServiceStep p) v w := by
  have hsteps : Steps.Any (PatientServiceStep (ι := ι) p) ≤ Steps.Any (ServiceStep p) := by
    rintro v w ⟨ia, hstep, -⟩
    exact ⟨ia, hstep⟩
  exact Relation.ReflTransGen.mono hsteps v w h

theorem PatientServiceStep.patient (h : PatientServiceStep p ia v w) :
    Steps.Beside (PatientStep p) ia v.tasks w.tasks := by
  obtain ⟨hstep, hstays⟩ := h
  cases hstep with
  | one i h hlog => exact .one i ⟨h, hstays⟩

theorem reaches_beside_patient (h : Steps.Reaches (PatientServiceStep p) v w) :
    Steps.Reaches (Steps.Beside (PatientStep p)) v.tasks w.tasks := by
  induction h with
  | refl => exact .refl
  | tail hreach hnext ih =>
    obtain ⟨ia, hstep⟩ := hnext
    exact ih.next hstep.patient

theorem Stuck.stream (h : Steps.Stuck (PatientServiceStep p) v) (i : ι) :
    Steps.Stuck (PatientStep p) (v.tasks i) := by
  rintro a t ⟨hstep, hstays⟩
  obtain ⟨events, hlog⟩ := hstep.log_grows
  exact h (i, a) _ ⟨.one i hstep hlog, hstays⟩

def Service.rank [Fintype ι] (p : FilterPipeline K) (v : Service K ι) : Nat :=
  ∑ i, (v.tasks i).rank p

theorem ServiceStep.rank_lt [Fintype ι] (h : ServiceStep p ia v w) : w.rank p < v.rank p :=
  h.beside.rank_lt fun _ _ _ hstep => hstep.rank_lt

theorem immediatesIn_fullTrace (inbound : List Inbound) :
    immediatesIn (fullTrace p inbound) = ((outcomes p .new inbound).map Outcome.recorded).sum := by
  rw [immediatesIn, handled_fullTrace, List.countP_flatMap]
  rfl

/-- If every consumer stays, the streams together neither deadlock nor run for ever, and at every
end each consumer has received all its stream is to deliver, each stream was counted, and so was
each rejection its handlers recorded. -/
theorem service_completes [Fintype ι] :
    (WellFounded fun w v : Service K ι => Steps.Any (ServiceStep p) v w) ∧
      ∀ v : Service K ι, Steps.Reaches (PatientServiceStep p) (.start inbound) v →
        (∃ w, Steps.Reaches (PatientServiceStep p) v w ∧
            Steps.Stuck (PatientServiceStep p) w) ∧
          (Steps.Stuck (PatientServiceStep p) v →
            (∀ i, (v.tasks i).received = expected p .new (inbound i)) ∧
              v.metrics.requestsTotal = Fintype.card ι ∧
              v.metrics.immediateResponsesTotal =
                ∑ i, ((outcomes p .new (inbound i)).map Outcome.recorded).sum) := by
  refine ⟨Steps.wellFounded_of_rank fun ia v w hstep => hstep.rank_lt, ?_⟩
  intro v h
  refine ⟨Steps.exists_stuck (fun ia v w hstep => hstep.1.rank_lt) v, ?_⟩
  intro hstuck
  have hstreams : ∀ i, (v.tasks i).pc = .ended ∧
      (v.tasks i).received = expected p .new (inbound i) ∧
        (v.tasks i).log = fullTrace p (inbound i) :=
    fun i => received_all ((reaches_beside_patient h).alone i) (Stuck.stream hstuck i)
  have hreach := reaches_of_patientService h
  obtain ⟨hrequests, himmediates⟩ := service_counted hreach
  refine ⟨fun i => (hstreams i).2.1, ?_, ?_⟩
  · have hone : ∀ i, requestsIn (v.tasks i).log = 1 := by
      intro i
      rw [(reached_inStage ((reaches_beside hreach).alone i)).1.requestsIn, (hstreams i).1]
      rfl
    rw [hrequests, Finset.sum_congr rfl fun i _ => hone i]
    exact (Finset.card_eq_sum_ones Finset.univ).symm
  · rw [himmediates]
    refine Finset.sum_congr rfl ?_
    intro i _
    rw [(hstreams i).2.2, immediatesIn_fullTrace]

/-- Stream `i` takes a step, and its consumer does not leave. -/
def AloneStep (p : FilterPipeline K) (i : ι) (ia : ι × Actor) (v w : Service K ι) : Prop :=
  PatientServiceStep p ia v w ∧ ia.1 = i

/-- What a stream can do by itself it can do in the service, wherever the others stand. -/
theorem reaches_alone {i : ι} {t : StreamTask K}
    (h : Steps.Reaches (PatientStep p) (v.tasks i) t) :
    ∃ w, Steps.Reaches (AloneStep p i) v w ∧ w.tasks = Function.update v.tasks i t := by
  induction h with
  | refl => exact ⟨v, .refl, (Function.update_eq_self i v.tasks).symm⟩
  | @tail t u hreach hnext ih =>
    obtain ⟨w, hw, htasks⟩ := ih
    obtain ⟨a, hstep, hstays⟩ := hnext
    have hi : w.tasks i = t := by
      rw [htasks, Function.update_self]
    rw [← hi] at hstep
    obtain ⟨events, hlog⟩ := hstep.log_grows
    have halone : AloneStep p i (i, a) w _ := ⟨⟨.one i hstep hlog, hstays⟩, rfl⟩
    refine ⟨_, hw.next halone, ?_⟩
    rw [htasks, Function.update_idem]

/-- A consumer that takes no reply holds up its own stream only: wherever the streams stand
together, a stream whose consumer is there comes to its end by steps of its own, and its consumer
has then received all of it, while nothing of the other streams moves. -/
theorem streams_unhindered (h : Steps.Reaches (ServiceStep p) (.start inbound) v) {i : ι}
    (hopen : (v.tasks i).channel.isOpen = true) :
    ∃ w, Steps.Reaches (AloneStep p i) v w ∧ (∀ j, j ≠ i → w.tasks j = v.tasks j) ∧
      (w.tasks i).pc = .ended ∧ (w.tasks i).received = expected p .new (inbound i) := by
  have hi : Steps.Reaches (TaskStep p) (.spawn (inbound i)) (v.tasks i) :=
    (reaches_beside h).alone i
  obtain ⟨t, hreach, hstuck⟩ :=
    Steps.exists_stuck (fun a t u (hstep : PatientStep p a t u) => hstep.1.rank_lt) (v.tasks i)
  obtain ⟨hend, hempty⟩ := stuck_patient hstuck
  have hstill : t.channel.isOpen = true := hreach.keeps (P := fun t => t.channel.isOpen = true)
    (fun a t u ho hstep => hstep.isOpen ho) hopen
  have hreceived := (ended_received (hi.trans (reaches_of_patient hreach)) hend hempty hstill).1
  obtain ⟨w, hw, htasks⟩ := reaches_alone hreach
  refine ⟨w, hw, ?_, ?_, ?_⟩
  · intro j hj
    rw [htasks, Function.update_of_ne hj]
  · rw [htasks, Function.update_self]
    exact hend
  · rw [htasks, Function.update_self]
    exact hreceived

theorem opened_unhindered : ∃ v w : Service httpCrates Bool,
    (v.tasks false).pc = .recording (.ok ()) ∧ Steps.Reaches (AloneStep passAll true) v w ∧
      (w.tasks false).pc = .recording (.ok ()) ∧
      (w.tasks true).received = expected passAll .new openedInbound := by
  have hfinished : ServiceStep passAll (false, .task) (.start pairInbound) _ :=
    .one false (.finished rfl) rfl
  have hstart : Steps.Reaches (ServiceStep passAll) (.start pairInbound) _ :=
    Relation.ReflTransGen.refl
  obtain ⟨w, hw, hothers, -, hreceived⟩ := streams_unhindered (hstart.next hfinished)
    (i := true) rfl
  refine ⟨_, w, rfl, hw, ?_, hreceived⟩
  rw [hothers false (by decide)]
  rfl

end Runs

end ExtProc
