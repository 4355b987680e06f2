import Mathlib.Tactic.Common

/-! Machines that answer messages one at a time and stop at the first failing reply. -/

structure Machine (σ μ ρ : Type) where
  step : σ → μ → ρ × σ
  fails : ρ → Bool

namespace Machine

/-- One message handled: the state it found, the reply, and the state it left. -/
structure Turn (σ μ ρ : Type) where
  before : σ
  message : μ
  reply : ρ
  after : σ

variable {σ μ ρ τ : Type} {M : Machine σ μ ρ} {s : σ} {m : μ} {ms xs ys : List μ}
  {t : Turn σ μ ρ} {pre post : List (Turn σ μ ρ)}

def turn (M : Machine σ μ ρ) (s : σ) (m : μ) : Turn σ μ ρ :=
  { before := s, message := m, reply := (M.step s m).1, after := (M.step s m).2 }

/-- The turns of a run, the failing one included; messages behind it are never handled. -/
def run (M : Machine σ μ ρ) (s : σ) : List μ → List (Turn σ μ ρ)
  | [] => []
  | m :: ms =>
    if M.fails (M.turn s m).reply then [M.turn s m]
    else M.turn s m :: M.run (M.turn s m).after ms

/-- The state a run leaves. -/
def final (M : Machine σ μ ρ) (s : σ) : List μ → σ
  | [] => s
  | m :: ms =>
    if M.fails (M.turn s m).reply then (M.turn s m).after
    else M.final (M.turn s m).after ms

@[simp] theorem turn_before : (M.turn s m).before = s := rfl
@[simp] theorem turn_message : (M.turn s m).message = m := rfl
@[simp] theorem run_nil : M.run s [] = [] := rfl
@[simp] theorem final_nil : M.final s [] = s := rfl

theorem run_cons_of_ok (h : M.fails (M.turn s m).reply = false) :
    M.run s (m :: ms) = M.turn s m :: M.run (M.turn s m).after ms := by
  simp [run, h]

theorem run_cons_of_fails (h : M.fails (M.turn s m).reply = true) :
    M.run s (m :: ms) = [M.turn s m] := by
  simp [run, h]

/-- The first turn of a run, and the run behind it. -/
theorem run_cons_eq_cons (h : M.run s (m :: ms) = t :: post) : t = M.turn s m ∧
    (post = [] ∨ M.fails t.reply = false ∧ M.run t.after ms = post) := by
  cases hm : M.fails (M.turn s m).reply with
  | true =>
    rw [run_cons_of_fails hm] at h
    obtain ⟨rfl, rfl⟩ := List.cons.inj h
    exact ⟨rfl, Or.inl rfl⟩
  | false =>
    rw [run_cons_of_ok hm] at h
    obtain ⟨rfl, rfl⟩ := List.cons.inj h
    exact ⟨rfl, Or.inr ⟨hm, rfl⟩⟩

theorem final_cons_of_ok (h : M.fails (M.turn s m).reply = false) :
    M.final s (m :: ms) = M.final (M.turn s m).after ms := by
  simp [final, h]

/-- A run that meets no failure goes on where it stands. -/
theorem run_append (h : ∀ t ∈ M.run s xs, M.fails t.reply = false) :
    M.run s (xs ++ ys) = M.run s xs ++ M.run (M.final s xs) ys := by
  induction xs generalizing s with
  | nil => rfl
  | cons m xs ih =>
    cases hm : M.fails (M.turn s m).reply with
    | true =>
      have hok : M.fails (M.turn s m).reply = false := h _ (by simp [run_cons_of_fails hm])
      simp [hm] at hok
    | false =>
      have htail := ih (s := (M.turn s m).after) fun t ht =>
        h t (by simp [run_cons_of_ok hm, ht])
      simp [run_cons_of_ok hm, final_cons_of_ok hm, htail]

theorem final_append (h : ∀ t ∈ M.run s xs, M.fails t.reply = false) :
    M.final s (xs ++ ys) = M.final (M.final s xs) ys := by
  induction xs generalizing s with
  | nil => rfl
  | cons m xs ih =>
    cases hm : M.fails (M.turn s m).reply with
    | true =>
      have hok : M.fails (M.turn s m).reply = false := h _ (by simp [run_cons_of_fails hm])
      simp [hm] at hok
    | false =>
      have htail := ih (s := (M.turn s m).after) fun t ht =>
        h t (by simp [run_cons_of_ok hm, ht])
      simp [final_cons_of_ok hm, htail]

/-- The replies of a run, in order. -/
def replies (M : Machine σ μ ρ) (s : σ) (ms : List μ) : List ρ := (M.run s ms).map Turn.reply

@[simp] theorem replies_singleton : M.replies s [m] = [(M.step s m).1] := by
  simp only [replies, run]
  split <;> rfl

@[simp] theorem final_singleton : M.final s [m] = (M.step s m).2 := by
  simp only [final]
  split <;> rfl

theorem replies_cons (h : M.fails (M.step s m).1 = false) :
    M.replies s (m :: ms) = (M.step s m).1 :: M.replies (M.step s m).2 ms := by
  have hturn : M.fails (M.turn s m).reply = false := h
  simp [replies, run_cons_of_ok hturn, turn]

theorem replies_cons_of_fails (h : M.fails (M.step s m).1 = true) :
    M.replies s (m :: ms) = [(M.step s m).1] := by
  have hturn : M.fails (M.turn s m).reply = true := h
  simp [replies, run_cons_of_fails hturn, turn]

theorem final_cons (h : M.fails (M.step s m).1 = false) :
    M.final s (m :: ms) = M.final (M.step s m).2 ms := final_cons_of_ok h

theorem replies_append (h : ∀ r ∈ M.replies s xs, M.fails r = false) :
    M.replies s (xs ++ ys) = M.replies s xs ++ M.replies (M.final s xs) ys := by
  have hrun : ∀ t ∈ M.run s xs, M.fails t.reply = false :=
    fun t ht => h t.reply (List.mem_map_of_mem ht)
  simp [replies, run_append hrun]

/-- What a run shows does not depend on what follows. -/
theorem replies_prefix : M.replies s xs <+: M.replies s (xs ++ ys) := by
  induction xs generalizing s with
  | nil => exact List.nil_prefix
  | cons m xs ih =>
    cases hm : M.fails (M.step s m).1 with
    | true =>
      refine ⟨[], ?_⟩
      rw [List.append_nil, List.cons_append, replies_cons_of_fails hm, replies_cons_of_fails hm]
    | false =>
      rw [List.cons_append, replies_cons hm, replies_cons hm]
      exact (List.prefix_cons_inj _).mpr ih

theorem final_append_of_replies (h : ∀ r ∈ M.replies s xs, M.fails r = false) :
    M.final s (xs ++ ys) = M.final (M.final s xs) ys :=
  final_append fun t ht => h t.reply (List.mem_map_of_mem ht)

/-- What holds of the turns so far and the state they leave holds at every turn. -/
theorem run_history {P : List (Turn σ μ ρ) → σ → Prop} (hinit : P [] s)
    (hstep : ∀ pre u m, P pre u → M.fails (M.turn u m).reply = false →
      P (pre ++ [M.turn u m]) (M.turn u m).after)
    (h : M.run s ms = pre ++ t :: post) :
    P pre t.before ∧ t = M.turn t.before t.message := by
  induction ms generalizing s pre P with
  | nil => simp at h
  | cons m ms ih =>
    cases hm : M.fails (M.turn s m).reply with
    | true =>
      rw [run_cons_of_fails hm] at h
      cases pre with
      | nil =>
        obtain ⟨rfl, -⟩ := List.cons.inj h
        exact ⟨hinit, rfl⟩
      | cons u pre => simp at h
    | false =>
      rw [run_cons_of_ok hm] at h
      cases pre with
      | nil =>
        obtain ⟨rfl, -⟩ := List.cons.inj h
        exact ⟨hinit, rfl⟩
      | cons u pre =>
        obtain ⟨rfl, htail⟩ := List.cons.inj h
        exact ih (P := fun pre' v => P (M.turn s m :: pre') v)
          (hstep [] s m hinit hm) (fun pre' v n hp => hstep _ v n hp) htail

theorem turn_of_mem_run (ht : t ∈ M.run s ms) : t = M.turn t.before t.message := by
  obtain ⟨pre, post, h⟩ := List.append_of_mem ht
  exact (run_history (P := fun _ _ => True) trivial (fun _ _ _ _ _ => trivial) h).2

/-- The message lists an automaton allows; every beginning of one is allowed too. -/
def Follows (next : τ → μ → Option τ) : τ → List μ → Prop
  | _, [] => True
  | q, m :: ms => ∃ r, next q m = some r ∧ Follows next r ms

/-- A machine driven by messages an automaton allows stays related to its states. -/
theorem run_follows {next : τ → μ → Option τ} {R : τ → σ → Prop} {q : τ} (hq : R q s)
    (hstep : ∀ q u m r, R q u → next q m = some r → M.fails (M.turn u m).reply = false →
      R r (M.turn u m).after)
    (hms : Follows next q ms) (ht : t ∈ M.run s ms) :
    ∃ q r, R q t.before ∧ next q t.message = some r := by
  induction ms generalizing s q with
  | nil => simp at ht
  | cons m ms ih =>
    obtain ⟨r, hr, hrest⟩ := hms
    cases hm : M.fails (M.turn s m).reply with
    | true =>
      rw [run_cons_of_fails hm, List.mem_singleton] at ht
      exact ⟨q, r, by simpa [ht] using hq, by simpa [ht] using hr⟩
    | false =>
      rw [run_cons_of_ok hm, List.mem_cons] at ht
      obtain rfl | ht := ht
      · exact ⟨q, r, hq, hr⟩
      · exact ih (hstep q s m r hq hr hm) hrest ht

/-- The same, with the turns so far. -/
theorem run_follows_history {next : τ → μ → Option τ} {P : τ → List (Turn σ μ ρ) → σ → Prop}
    {q : τ} (hinit : P q [] s)
    (hstep : ∀ q pre u m r, P q pre u → next q m = some r →
      M.fails (M.turn u m).reply = false → P r (pre ++ [M.turn u m]) (M.turn u m).after)
    (hms : Follows next q ms) (h : M.run s ms = pre ++ t :: post) :
    ∃ q r, P q pre t.before ∧ next q t.message = some r := by
  induction ms generalizing s q pre P with
  | nil => simp at h
  | cons m ms ih =>
    obtain ⟨r, hr, hrest⟩ := hms
    cases pre with
    | nil =>
      obtain ⟨rfl, -⟩ := run_cons_eq_cons h
      exact ⟨q, r, hinit, hr⟩
    | cons u pre =>
      obtain ⟨rfl, hnone | ⟨hm, htail⟩⟩ := run_cons_eq_cons h
      · simp at hnone
      · refine ih (P := fun q' pre' v => P q' (M.turn s m :: pre') v)
          (hstep q [] s m r hinit hr hm) ?_ hrest htail
        intro q' pre' v n r' hp
        exact hstep q' _ v n r' hp

end Machine
