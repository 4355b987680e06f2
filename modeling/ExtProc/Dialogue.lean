import Mathlib.Data.Prod.Lex
import ExtProc.Progress
import ExtProc.Replies

/-! Envoy and the task of its stream, each of which waits for the other. -/
namespace ExtProc

variable {K : Crates} {p : FilterPipeline K} {inbound more : List Inbound} {m : Message}
  {script : List Message} {window : Nat}

/-- Envoy's end of a stream and the task at the other end. Envoy counts the replies it still waits
for, and an immediate response or a status is the last thing it cares for. What it sent and the
task has not received yet is held by the task. -/
structure Dialogue (K : Crates) where
  sent : List Message
  unsent : List Message
  outstanding : Nat
  isOver : Bool
  closed : Bool
  task : StreamTask K

/-- The messages as inbound items. -/
def inboundOf (ms : List Message) : List Inbound := ms.map fun m => .ok ⟨some m⟩

def Outbound.isLast (item : Outbound) : Bool :=
  match item with
  | .ok ⟨some (.immediateResponse _)⟩ => true
  | .ok _ => false
  | .error _ => true

/-- More inbound items for a task that still receives them. -/
def TaskPc.extend (more : List Inbound) : TaskPc → TaskPc
  | .receiving inbound => .receiving (inbound ++ more)
  | .sending responses inbound => .sending responses (inbound ++ more)
  | pc => pc

def StreamTask.extend (t : StreamTask K) (more : List Inbound) : StreamTask K :=
  { t with pc := t.pc.extend more }

namespace Dialogue

def start (script : List Message) : Dialogue K where
  sent := []
  unsent := script
  outstanding := 0
  isOver := false
  closed := false
  task := .spawn []

/-- Envoy sends a message; every message but a chunk that leaves its body open is to be answered. -/
def send (d : Dialogue K) (m : Message) (unsent : List Message) : Dialogue K :=
  { d with
    sent := d.sent ++ [m]
    unsent := unsent
    outstanding := d.outstanding + (!m.isOpenChunk).toNat
    task := d.task.extend [.ok ⟨some m⟩] }

/-- Envoy receives an item; the task is as it stands with the item taken. -/
def take (d : Dialogue K) (item : Outbound) (task : StreamTask K) : Dialogue K :=
  { d with outstanding := d.outstanding - 1, isOver := d.isOver || item.isLast, task := task }

end Dialogue

inductive Party where
  | envoy
  | task
  deriving DecidableEq

/-- Envoy holds the next message back while as many replies as its window are outstanding, and
closes its half when all is answered or the exchange is over. The task waits for the next message
until Envoy has closed its half. -/
inductive DialogueStep (p : FilterPipeline K) (window : Nat) :
    Party → Dialogue K → Dialogue K → Prop
  | sends {d : Dialogue K} {m : Message} {ms : List Message} (hunsent : d.unsent = m :: ms)
      (hgoes : d.isOver = false) (hwindow : d.outstanding < window) :
      DialogueStep p window .envoy d (d.send m ms)
  | takes {d : Dialogue K} {item : Outbound} {items : List Outbound}
      (hq : d.task.channel.queue = item :: items) :
      DialogueStep p window .envoy d (d.take item
        { d.task with channel := d.task.channel.pop hq, received := d.task.received ++ [item] })
  | closes {d : Dialogue K} (hopen : d.closed = false)
      (hend : d.unsent = [] ∧ d.outstanding = 0 ∨ d.isOver = true) :
      DialogueStep p window .envoy d { d with closed := true }
  | goesOn {d : Dialogue K} {t : StreamTask K} (hstep : TaskStep p .task d.task t)
      (hwait : d.task.pc = .receiving [] → d.closed = true) :
      DialogueStep p window .task d { d with task := t }

@[simp] theorem extend_extend {t : StreamTask K} :
    (t.extend inbound).extend more = t.extend (inbound ++ more) := by
  cases t with
  | mk pc state channel received log =>
    cases pc <;> simp [StreamTask.extend, TaskPc.extend, List.append_assoc]

@[simp] theorem extend_nil {t : StreamTask K} : t.extend [] = t := by
  cases t with
  | mk pc state channel received log =>
    cases pc <;> simp [StreamTask.extend, TaskPc.extend]

theorem extend_pc {t : StreamTask K} {pc : TaskPc} (hpc : t.pc = pc) :
    (t.extend more).pc = pc.extend more := by
  rw [← hpc]
  rfl

/-- Items that are still to come change no step but the last `receive`. -/
theorem TaskStep.extend {a : Actor} {t u : StreamTask K} (hstep : TaskStep p a t u)
    (hwait : t.pc ≠ .receiving []) : TaskStep p a (t.extend more) (u.extend more) := by
  cases hstep with
  | finished hpc => exact (hwait hpc).elim
  | broken hpc => exact .broken (extend_pc hpc)
  | skipped hpc => exact .skipped (extend_pc hpc)
  | answered hpc hok => exact .answered (extend_pc hpc) hok
  | failed hpc he => exact .failed (extend_pc hpc) he
  | sentAll hpc => exact .sentAll (extend_pc hpc)
  | sent hpc hopen hroom => exact .sent (extend_pc hpc) hopen hroom
  | foundClosed hpc hclosed => exact .foundClosed (extend_pc hpc) hclosed
  | recorded hpc => exact .recorded (extend_pc hpc)
  | recordedFailure hpc => exact .recordedFailure (extend_pc hpc)
  | reported hpc hopen hroom => exact .reported (extend_pc hpc) hopen hroom
  | reportedInVain hpc hclosed => exact .reportedInVain (extend_pc hpc) hclosed
  | taken hq => exact .taken (t := t.extend more) hq
  | left hopen => exact .left (t := t.extend more) hopen

/-- An inbound item that a reply answers. -/
def owes : Inbound → Bool
  | .ok ⟨some m⟩ => !m.isOpenChunk
  | _ => false

/-- The replies a task still has to send for what was sent to it. -/
def TaskPc.owed : TaskPc → Nat
  | .receiving inbound => inbound.countP owes
  | .sending responses inbound => responses.length + inbound.countP owes
  | _ => 0

/-- While the task receives, what is outstanding is what it owes and what waits for Envoy. A task
that stops without a status does so because Envoy closed its half, and a status it sent waits for
Envoy or was received. -/
def Dialogue.Accounted (d : Dialogue K) : Prop :=
  match d.task.pc with
  | .receiving _ | .sending _ _ =>
    d.task.pc.owed + d.task.channel.queue.length = d.outstanding
  | .recording (.ok ()) => d.closed = true
  | .recording (.error _) | .reporting _ => True
  | .ended => d.closed = true ∨ d.isOver = true ∨ ∃ e, .error e ∈ d.task.channel.queue

/-- The statuses a task may still send. -/
def TaskPc.statuses : TaskPc → Nat
  | .ended => 0
  | _ => 1

/-- What holds at every moment: the task stands where it could stand if all that is still to come
had been there from the start. -/
structure Dialogue.Sound (p : FilterPipeline K) (script : List Message) (window : Nat)
    (d : Dialogue K) : Prop where
  whole : d.sent ++ d.unsent = script
  alone : ∀ more, (d.closed = true → more = []) →
    Steps.Reaches (TaskStep p) (.spawn (inboundOf d.sent ++ more)) (d.task.extend more)
  closing : d.closed = true → d.unsent = [] ∨ d.isOver = true
  isOpen : d.task.channel.isOpen = true
  isOver : d.isOver = d.task.received.any Outbound.isLast
  accounted : d.Accounted
  outstanding : d.outstanding ≤ window
  few : d.task.channel.queue.length + d.task.pc.statuses ≤ d.outstanding + 1

theorem Dialogue.Sound.start : (Dialogue.start script : Dialogue K).Sound p script window where
  whole := rfl
  alone more _ := .refl
  closing h := by cases h
  isOpen := rfl
  isOver := rfl
  accounted := rfl
  outstanding := Nat.zero_le _
  few := Nat.le_refl _

@[simp] theorem countP_owes_singleton :
    [(.ok ⟨some m⟩ : Inbound)].countP owes = (!m.isOpenChunk).toNat := by
  cases hm : m.isOpenChunk <;> simp [owes, hm]

/-- Each reply of a message that is handled was owed for it. -/
theorem length_replies {s : StreamState K} {replies : List ProcessingResponse}
    (hok : (handle p s m).1.replies = .ok replies) :
    replies.length = (!m.isOpenChunk).toNat := by
  have hanswers := (handle_run p s m).answers hok
  cases hm : m.isOpenChunk with
  | true =>
    rw [hm] at hanswers
    have hnone : replies = [] := hanswers
    rw [hnone]
    rfl
  | false =>
    rw [hm] at hanswers
    obtain ⟨r, rfl, -⟩ : ∃ r, replies = [r] ∧ Answers m r := hanswers
    rfl

/-- A step of the task keeps the account, if a stop without a status is Envoy's doing. -/
theorem TaskStep.accounted {d : Dialogue K} {t : StreamTask K}
    (hstep : TaskStep p .task d.task t) (hopen : d.task.channel.isOpen = true)
    (hwait : d.task.pc = .receiving [] → d.closed = true) (h : d.Accounted) :
    ({ d with task := t } : Dialogue K).Accounted := by
  cases hstep with
  | finished hpc => exact hwait hpc
  | broken hpc => trivial
  | failed hpc he => trivial
  | recordedFailure hpc => trivial
  | skipped hpc | sentAll hpc =>
    simp only [Dialogue.Accounted, hpc, TaskPc.owed] at h
    simpa [Dialogue.Accounted, StreamTask.goTo, TaskPc.owed, owes] using h
  | @answered t m inbound replies hpc hok =>
    have hlength := length_replies hok
    have hcount : (.ok ⟨some m⟩ :: inbound).countP owes =
        (!m.isOpenChunk).toNat + inbound.countP owes := by
      rw [← countP_owes_singleton, ← List.countP_append]
      rfl
    simp only [Dialogue.Accounted, hpc, TaskPc.owed, hcount] at h
    simp only [Dialogue.Accounted, StreamTask.answer, TaskPc.owed, hlength]
    exact h
  | sent hpc _ hroom =>
    simp only [Dialogue.Accounted, hpc, TaskPc.owed, List.length_cons] at h
    simp only [Dialogue.Accounted, StreamTask.put, TaskPc.owed, Channel.push_queue,
      List.length_append, List.length_singleton]
    omega
  | foundClosed hpc hclosed | reportedInVain hpc hclosed =>
    rw [hopen] at hclosed
    cases hclosed
  | recorded hpc =>
    simp only [Dialogue.Accounted, hpc] at h
    exact Or.inl h
  | @reported t e hpc _ hroom =>
    refine Or.inr (Or.inr ⟨e, ?_⟩)
    simp [StreamTask.put]

/-- An item that Envoy takes is off the account. -/
theorem Dialogue.Accounted.take {d : Dialogue K} (h : d.Accounted) {item : Outbound}
    {items : List Outbound} (hq : d.task.channel.queue = item :: items) :
    (d.take item { d.task with
      channel := d.task.channel.pop hq, received := d.task.received ++ [item] }).Accounted := by
  cases hpc : d.task.pc with
  | receiving inbound | sending replies inbound =>
    simp only [Dialogue.Accounted, hpc, hq, List.length_cons] at h
    simp only [Dialogue.Accounted, Dialogue.take, hpc, Channel.pop_queue]
    omega
  | recording result =>
    cases result with
    | ok u =>
      simp only [Dialogue.Accounted, hpc] at h
      simpa only [Dialogue.Accounted, Dialogue.take, hpc] using h
    | error e => simp only [Dialogue.Accounted, Dialogue.take, hpc]
  | reporting e => simp only [Dialogue.Accounted, Dialogue.take, hpc]
  | ended =>
    simp only [Dialogue.Accounted, hpc, hq] at h
    simp only [Dialogue.Accounted, Dialogue.take, hpc, Channel.pop_queue]
    rcases h with hclosed | hover | ⟨e, he⟩
    · exact Or.inl hclosed
    · exact Or.inr (Or.inl (by rw [hover, Bool.true_or]))
    · rcases List.mem_cons.mp he with rfl | he
      · exact Or.inr (Or.inl (Bool.or_true _))
      · exact Or.inr (Or.inr ⟨e, he⟩)

/-- A message that Envoy sends is on the account, if it is to be answered. -/
theorem Dialogue.Accounted.send {d : Dialogue K} (h : d.Accounted) (m : Message)
    (ms : List Message) : (d.send m ms).Accounted := by
  cases hpc : d.task.pc with
  | receiving inbound | sending replies inbound =>
    simp only [Dialogue.Accounted, hpc, TaskPc.owed] at h
    simp only [Dialogue.Accounted, Dialogue.send, StreamTask.extend, hpc, TaskPc.extend,
      TaskPc.owed, List.countP_append, countP_owes_singleton]
    omega
  | recording result =>
    cases result with
    | ok u =>
      simp only [Dialogue.Accounted, hpc] at h
      simpa only [Dialogue.Accounted, Dialogue.send, StreamTask.extend, hpc, TaskPc.extend] using h
    | error e =>
      simp only [Dialogue.Accounted, Dialogue.send, StreamTask.extend, hpc, TaskPc.extend]
  | reporting e =>
    simp only [Dialogue.Accounted, Dialogue.send, StreamTask.extend, hpc, TaskPc.extend]
  | ended =>
    simp only [Dialogue.Accounted, hpc] at h
    simpa only [Dialogue.Accounted, Dialogue.send, StreamTask.extend, hpc, TaskPc.extend] using h

theorem Dialogue.Accounted.close {d : Dialogue K} (h : d.Accounted) :
    ({ d with closed := true } : Dialogue K).Accounted := by
  cases hpc : d.task.pc with
  | receiving inbound | sending replies inbound =>
    simpa only [Dialogue.Accounted, hpc] using h
  | recording result => cases result <;> simp only [Dialogue.Accounted, hpc]
  | reporting e => simp only [Dialogue.Accounted, hpc]
  | ended => simp only [Dialogue.Accounted, hpc, true_or]

/-- The task adds a reply only while it owes one, or its one status. -/
theorem TaskStep.few {d : Dialogue K} {t : StreamTask K} (hstep : TaskStep p .task d.task t)
    (hacc : d.Accounted)
    (h : d.task.channel.queue.length + d.task.pc.statuses ≤ d.outstanding + 1) :
    t.channel.queue.length + t.pc.statuses ≤ d.outstanding + 1 := by
  cases hstep with
  | finished hpc | broken hpc | skipped hpc | sentAll hpc | foundClosed hpc _
  | recordedFailure hpc | answered hpc _ | failed hpc _ =>
    simpa only [hpc, TaskPc.statuses, StreamTask.goTo, StreamTask.answer] using h
  | recorded hpc | reportedInVain hpc _ =>
    simp only [hpc, TaskPc.statuses] at h
    simp only [StreamTask.goTo, TaskPc.statuses]
    omega
  | sent hpc _ hroom =>
    simp only [Dialogue.Accounted, hpc, TaskPc.owed, List.length_cons] at hacc
    simp only [StreamTask.put, TaskPc.statuses, Channel.push_queue, List.length_append,
      List.length_singleton]
    omega
  | reported hpc _ hroom =>
    simp only [hpc, TaskPc.statuses] at h
    simp only [StreamTask.put, TaskPc.statuses, Channel.push_queue, List.length_append,
      List.length_singleton]
    omega

theorem TaskStep.keeps_received {t u : StreamTask K} (hstep : TaskStep p .task t u) :
    u.received = t.received ∧ u.channel.isOpen = t.channel.isOpen := by
  cases hstep <;> exact ⟨rfl, rfl⟩

theorem statuses_extend {pc : TaskPc} : (pc.extend more).statuses = pc.statuses := by
  cases pc <;> rfl

theorem DialogueStep.sound {a : Party} {d d' : Dialogue K} (hstep : DialogueStep p window a d d')
    (h : d.Sound p script window) : d'.Sound p script window := by
  cases hstep with
  | @sends _ m ms hunsent hgoes hwindow =>
    have hopen : d.closed ≠ true := by
      intro hclosed
      rcases h.closing hclosed with hnil | hover
      · rw [hnil] at hunsent
        cases hunsent
      · rw [hover] at hgoes
        cases hgoes
    refine ⟨?_, ?_, fun hclosed => (hopen hclosed).elim, h.isOpen, h.isOver, h.accounted.send m ms,
      ?_, ?_⟩
    · rw [← h.whole, hunsent]
      exact List.append_assoc d.sent [m] ms
    · intro more _
      have hreach := h.alone (.ok ⟨some m⟩ :: more) fun hclosed => (hopen hclosed).elim
      simpa [Dialogue.send, inboundOf] using hreach
    · have hone := Bool.toNat_le (!m.isOpenChunk)
      simp only [Dialogue.send]
      omega
    · have hfew := h.few
      rw [← statuses_extend] at hfew
      refine hfew.trans (Nat.add_le_add_right ?_ 1)
      exact Nat.le_add_right d.outstanding _
  | @takes _ item items hq =>
    refine ⟨h.whole, ?_, ?_, h.isOpen, ?_, h.accounted.take hq, ?_, ?_⟩
    · intro more hmore
      exact (h.alone more hmore).next (.taken (t := d.task.extend more) hq)
    · intro hclosed
      rcases h.closing hclosed with hnil | hover
      · exact Or.inl hnil
      · exact Or.inr (by simp only [Dialogue.take, hover, Bool.true_or])
    · simp [Dialogue.take, h.isOver]
    · have hle := h.outstanding
      simp only [Dialogue.take]
      omega
    · have hfew := h.few
      rw [hq, List.length_cons] at hfew
      simp only [Dialogue.take, Channel.pop_queue]
      omega
  | closes hopen hend =>
    refine ⟨h.whole, ?_, ?_, h.isOpen, h.isOver, h.accounted.close, h.outstanding, h.few⟩
    · intro more hmore
      rw [hmore rfl]
      exact h.alone [] fun _ => rfl
    · intro _
      exact hend.imp_left And.left
  | @goesOn _ t hstep hwait =>
    obtain ⟨hreceived, hsame⟩ := hstep.keeps_received
    refine ⟨h.whole, ?_, h.closing, hsame.trans h.isOpen, ?_,
      hstep.accounted h.isOpen hwait h.accounted, h.outstanding,
      hstep.few h.accounted h.few⟩
    · intro more hmore
      have hreach := h.alone more hmore
      by_cases hlast : d.task.pc = .receiving []
      · have hnil := hmore (hwait hlast)
        subst hnil
        rw [extend_nil] at hreach ⊢
        exact hreach.next hstep
      · exact hreach.next (hstep.extend hlast)
    · exact h.isOver.trans (congrArg (List.any · Outbound.isLast) hreceived.symm)

theorem reached_sound {d : Dialogue K}
    (h : Steps.Reaches (DialogueStep p window) (.start script) d) : d.Sound p script window :=
  h.keeps (fun _ _ _ hd hstep => hstep.sound hd) .start

/-- The messages still to send, then the steps of the task, then the end of Envoy's half. -/
def Dialogue.rank (p : FilterPipeline K) (d : Dialogue K) : Nat ×ₗ Nat ×ₗ Nat :=
  toLex (d.unsent.length, toLex (d.task.rank p, (!d.closed).toNat))

theorem DialogueStep.rank_lt {a : Party} {d d' : Dialogue K}
    (hstep : DialogueStep p window a d d') : d'.rank p < d.rank p := by
  rw [Dialogue.rank, Dialogue.rank, Prod.Lex.toLex_lt_toLex]
  cases hstep with
  | sends hunsent hgoes hwindow =>
    left
    rw [hunsent]
    exact Nat.lt_succ_self _
  | takes hq =>
    right
    refine ⟨rfl, Prod.Lex.toLex_lt_toLex.mpr (Or.inl ?_)⟩
    exact (TaskStep.taken (p := p) hq).rank_lt
  | closes hopen hend =>
    right
    refine ⟨rfl, Prod.Lex.toLex_lt_toLex.mpr (Or.inr ⟨rfl, ?_⟩)⟩
    simp [hopen]
  | goesOn hstep hwait =>
    right
    exact ⟨rfl, Prod.Lex.toLex_lt_toLex.mpr (Or.inl hstep.rank_lt)⟩

/-- An Envoy that neither waits nor has anything to send closes its half. -/
theorem not_stuck_idle {d : Dialogue K} (hwindow : 0 < window) (hopen : d.closed = false)
    (hnone : d.outstanding = 0) : ¬ Steps.Stuck (DialogueStep p window) d := by
  intro hstuck
  cases hover : d.isOver with
  | true => exact hstuck .envoy _ (.closes hopen (Or.inr hover))
  | false =>
    cases hunsent : d.unsent with
    | nil => exact hstuck .envoy _ (.closes hopen (Or.inl ⟨hunsent, hnone⟩))
    | cons m ms => exact hstuck .envoy _ (.sends hunsent hover (hnone ▸ hwindow))

/-- Where neither can go on, both are through: nobody waits for the other. -/
theorem stuck_dialogue {d : Dialogue K} (hwindow : 0 < window) (h : d.Sound p script window)
    (hstuck : Steps.Stuck (DialogueStep p window) d) :
    d.closed = true ∧ d.task.pc = .ended ∧ d.task.channel.queue = [] := by
  have hempty : d.task.channel.queue = [] := by
    cases hq : d.task.channel.queue with
    | nil => rfl
    | cons item items => exact (hstuck .envoy _ (.takes hq)).elim
  have hended : d.task.pc = .ended := by
    by_contra hpc
    by_cases hwaits : d.task.pc = .receiving [] ∧ d.closed = false
    · obtain ⟨hlast, hopen⟩ := hwaits
      have hacc := h.accounted
      simp only [Dialogue.Accounted, hlast, hempty, TaskPc.owed] at hacc
      exact not_stuck_idle hwindow hopen hacc.symm hstuck
    · obtain ⟨a, t, hstep, hstays⟩ := exists_patientStep (p := p) hpc
      cases a with
      | task =>
        refine hstuck .task _ (.goesOn hstep ?_)
        intro hlast
        by_contra hopen
        exact hwaits ⟨hlast, Bool.eq_false_of_not_eq_true hopen⟩
      | consumer =>
        cases hstep with
        | taken hq =>
          rw [hempty] at hq
          cases hq
      | departure => exact hstays rfl
  refine ⟨?_, hended, hempty⟩
  by_contra hopen
  have hopen := Bool.eq_false_of_not_eq_true hopen
  have hacc := h.accounted
  simp only [Dialogue.Accounted, hended, hempty, hopen] at hacc
  rcases hacc with hclosed | hover | ⟨e, he⟩
  · cases hclosed
  · exact hstuck .envoy _ (.closes hopen (Or.inr hover))
  · cases he

/-- At the end Envoy has received what the messages it sent are answered with, and it sent its whole
script unless something it received cut it short. -/
theorem stuck_received {d : Dialogue K} (hwindow : 0 < window) (h : d.Sound p script window)
    (hstuck : Steps.Stuck (DialogueStep p window) d) :
    d.task.received = expected p .new (inboundOf d.sent) ∧
      (d.sent = script ∨
        d.sent <+: script ∧ ∃ item ∈ d.task.received, item.isLast = true) := by
  obtain ⟨hclosed, hended, hempty⟩ := stuck_dialogue hwindow h hstuck
  have halone := h.alone [] fun _ => rfl
  rw [List.append_nil, extend_nil] at halone
  obtain ⟨hreceived, -⟩ := ended_received halone hended hempty h.isOpen
  refine ⟨hreceived, ?_⟩
  rcases h.closing hclosed with hnil | hover
  · left
    rw [← h.whole, hnil, List.append_nil]
  · right
    rw [h.isOver, List.any_eq_true] at hover
    exact ⟨⟨d.unsent, h.whole⟩, hover⟩

/-- Envoy holds messages back while replies are outstanding, the task waits for messages, and they
never wait for each other: every order of steps comes to an end, at which both are through, Envoy
has received all that the messages it sent are answered with, and it sent its whole script unless
an immediate response or a status cut it short. The channel never holds more than the replies that
are outstanding, at most as many as Envoy's window, and a status. -/
theorem dialogue_completes (hwindow : 0 < window) :
    (WellFounded fun d' d : Dialogue K => Steps.Any (DialogueStep p window) d d') ∧
      ∀ d : Dialogue K, Steps.Reaches (DialogueStep p window) (.start script) d →
        d.task.channel.queue.length ≤ d.outstanding + 1 ∧ d.outstanding ≤ window ∧
          (∃ d', Steps.Reaches (DialogueStep p window) d d' ∧
            Steps.Stuck (DialogueStep p window) d') ∧
          (Steps.Stuck (DialogueStep p window) d →
            d.closed = true ∧ d.task.pc = .ended ∧
              d.task.received = expected p .new (inboundOf d.sent) ∧
              (d.sent = script ∨
                d.sent <+: script ∧ ∃ item ∈ d.task.received, item.isLast = true)) := by
  refine ⟨Steps.wellFounded_of_rank fun a d d' hstep => hstep.rank_lt, ?_⟩
  intro d hreach
  have hsound := reached_sound hreach
  have hfew := hsound.few
  refine ⟨by omega, hsound.outstanding, Steps.exists_stuck (fun a d d' hstep => hstep.rank_lt) d, ?_⟩
  intro hstuck
  obtain ⟨hclosed, hended, -⟩ := stuck_dialogue hwindow hsound hstuck
  exact ⟨hclosed, hended, stuck_received hwindow hsound hstuck⟩

section Waiting

/-- Envoy waits for the reply to the headers before it sends the body. -/
def waitingScript : List Message := [.requestHeaders ⟨none, false⟩, .requestBody ⟨[1], true⟩]

theorem waiting_completes : ∃ d : Dialogue httpCrates,
    Steps.Reaches (DialogueStep passAll 1) (.start waitingScript) d ∧ d.task.pc = .ended ∧
      d.task.received = expected passAll .new (inboundOf d.sent) ∧
      (d.sent = waitingScript ∨
        d.sent <+: waitingScript ∧ ∃ item ∈ d.task.received, item.isLast = true) := by
  have hstart : Steps.Reaches (DialogueStep passAll 1) (.start waitingScript) _ :=
    Relation.ReflTransGen.refl
  obtain ⟨-, -, ⟨d, hreach, hstuck⟩, -⟩ := (dialogue_completes Nat.one_pos).2 _ hstart
  obtain ⟨-, -, -, hends⟩ := (dialogue_completes Nat.one_pos).2 d hreach
  obtain ⟨-, hended, hreceived, hsent⟩ := hends hstuck
  exact ⟨d, hreach, hended, hreceived, hsent⟩

end Waiting

end ExtProc
