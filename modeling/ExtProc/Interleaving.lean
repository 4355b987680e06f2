import ExtProc.Machine

/-! Two message lists woven into one, on a machine where their messages do not interfere. -/

/-- The third list takes the elements of the first two, each in its own order. -/
inductive Interleaves {α : Type} : List α → List α → List α → Prop
  | nil : Interleaves [] [] []
  | left {x : α} {xs ys zs : List α} (h : Interleaves xs ys zs) : Interleaves (x :: xs) ys (x :: zs)
  | right {y : α} {xs ys zs : List α} (h : Interleaves xs ys zs) :
      Interleaves xs (y :: ys) (y :: zs)

theorem Interleaves.mem {α : Type} {xs ys zs : List α} (h : Interleaves xs ys zs) {z : α}
    (hz : z ∈ zs) : z ∈ xs ∨ z ∈ ys := by
  induction h with
  | nil => simp at hz
  | left h ih =>
    rcases List.mem_cons.mp hz with rfl | hz
    · exact Or.inl List.mem_cons_self
    · exact (ih hz).imp_left (List.mem_cons_of_mem _)
  | right h ih =>
    rcases List.mem_cons.mp hz with rfl | hz
    · exact Or.inr List.mem_cons_self
    · exact (ih hz).imp_right (List.mem_cons_of_mem _)

theorem Interleaves.length {α : Type} {xs ys zs : List α} (h : Interleaves xs ys zs) :
    zs.length = xs.length + ys.length := by
  induction h with
  | nil => rfl
  | left h ih => simp only [List.length_cons, ih]; omega
  | right h ih => simp only [List.length_cons, ih]; omega

namespace Machine

variable {σ μ ρ : Type} {M : Machine σ μ ρ} {s : σ} {x y : μ} {ms xs ys zs zs' : List μ}

/-- Neither message changes the reply to the other, and their order leaves no trace. -/
structure Independent (M : Machine σ μ ρ) (x y : μ) : Prop where
  left : ∀ s, (M.step (M.step s y).2 x).1 = (M.step s x).1
  right : ∀ s, (M.step (M.step s x).2 y).1 = (M.step s y).1
  state : ∀ s, (M.step (M.step s x).2 y).2 = (M.step (M.step s y).2 x).2

/-- Every message is answered. -/
def Accepts (M : Machine σ μ ρ) (s : σ) (ms : List μ) : Prop :=
  ∀ r ∈ M.replies s ms, M.fails r = false

theorem accepts_cons : M.Accepts s (x :: ms) ↔
    M.fails (M.step s x).1 = false ∧ M.Accepts (M.step s x).2 ms := by
  cases hx : M.fails (M.step s x).1 with
  | false => simp [Accepts, replies_cons hx, hx]
  | true => simp [Accepts, replies_cons_of_fails hx, hx]

/-- A message moves to the front across messages that do not interfere with it. -/
theorem accepts_middle (h : ∀ x ∈ xs, M.Independent x y) :
    M.Accepts s (xs ++ y :: ys) ↔ M.Accepts s (y :: (xs ++ ys)) := by
  induction xs generalizing s with
  | nil => rfl
  | cons x xs ih =>
    have hxy := h x List.mem_cons_self
    have htail := ih (s := (M.step s x).2) fun x hx => h x (List.mem_cons_of_mem _ hx)
    simp only [List.cons_append, accepts_cons, htail, hxy.left, hxy.right, hxy.state]
    tauto

theorem final_middle (h : ∀ x ∈ xs, M.Independent x y) (hs : M.Accepts s (y :: (xs ++ ys))) :
    M.final s (xs ++ y :: ys) = M.final s (y :: (xs ++ ys)) := by
  induction xs generalizing s with
  | nil => rfl
  | cons x xs ih =>
    have hxy := h x List.mem_cons_self
    have hfront : M.Accepts s (y :: x :: (xs ++ ys)) := hs
    simp only [accepts_cons] at hfront
    obtain ⟨hy, hx, hrest⟩ := hfront
    have hx' : M.fails (M.step s x).1 = false := by simpa only [hxy.left] using hx
    have hy' : M.fails (M.step (M.step s x).2 y).1 = false := by simpa only [hxy.right] using hy
    have htail := ih (s := (M.step s x).2) (fun x hx => h x (List.mem_cons_of_mem _ hx))
      (accepts_cons.mpr ⟨hy', by simpa only [hxy.state] using hrest⟩)
    calc M.final s (x :: (xs ++ y :: ys))
        = M.final (M.step s x).2 (xs ++ y :: ys) := final_cons hx'
      _ = M.final (M.step s x).2 (y :: (xs ++ ys)) := htail
      _ = M.final (M.step (M.step s x).2 y).2 (xs ++ ys) := final_cons hy'
      _ = M.final (M.step (M.step s y).2 x).2 (xs ++ ys) := by rw [hxy.state]
      _ = M.final (M.step s y).2 (x :: (xs ++ ys)) := (final_cons hx).symm
      _ = M.final s (y :: x :: (xs ++ ys)) := (final_cons hy).symm

/-- Weaving changes nothing: it is as if the one list came before the other. -/
theorem accepts_interleaved (hz : Interleaves xs ys zs)
    (h : ∀ x ∈ xs, ∀ y ∈ ys, M.Independent x y) :
    M.Accepts s zs ↔ M.Accepts s (xs ++ ys) := by
  induction hz generalizing s with
  | nil => rfl
  | @left x xs ys zs hz ih =>
    have htail := ih (s := (M.step s x).2) fun x hx => h x (List.mem_cons_of_mem _ hx)
    simp only [List.cons_append, accepts_cons, htail]
  | @right y xs ys zs hz ih =>
    have htail := ih (s := (M.step s y).2) fun x hx y hy => h x hx y (List.mem_cons_of_mem _ hy)
    rw [accepts_middle fun x hx => h x hx _ List.mem_cons_self]
    simp only [accepts_cons, htail]

theorem final_interleaved (hz : Interleaves xs ys zs)
    (h : ∀ x ∈ xs, ∀ y ∈ ys, M.Independent x y) (hs : M.Accepts s zs) :
    M.final s zs = M.final s (xs ++ ys) := by
  induction hz generalizing s with
  | nil => rfl
  | left hz ih =>
    obtain ⟨hx, hrest⟩ := accepts_cons.mp hs
    have htail := ih (fun x hx => h x (List.mem_cons_of_mem _ hx)) hrest
    exact (final_cons hx).trans (htail.trans (final_cons hx).symm)
  | @right y xs ys zs hz ih =>
    have hys := fun x hx y hy => h x hx y (List.mem_cons_of_mem _ hy)
    obtain ⟨hy, hrest⟩ := accepts_cons.mp hs
    have htail := ih hys hrest
    have hfront : M.Accepts s (y :: (xs ++ ys)) :=
      accepts_cons.mpr ⟨hy, (accepts_interleaved hz hys).mp hrest⟩
    rw [final_middle (fun x hx => h x hx y List.mem_cons_self) hfront]
    exact (final_cons hy).trans (htail.trans (final_cons hy).symm)

/-- Any two ways to weave the same lists are accepted together and leave the same state. -/
theorem interleavings_agree (hz : Interleaves xs ys zs) (hz' : Interleaves xs ys zs')
    (h : ∀ x ∈ xs, ∀ y ∈ ys, M.Independent x y) (hs : M.Accepts s zs) :
    M.Accepts s zs' ∧ M.final s zs' = M.final s zs := by
  have hs' : M.Accepts s zs' :=
    (accepts_interleaved hz' h).mpr ((accepts_interleaved hz h).mp hs)
  exact ⟨hs', (final_interleaved hz' h hs').trans (final_interleaved hz h hs).symm⟩

end Machine
