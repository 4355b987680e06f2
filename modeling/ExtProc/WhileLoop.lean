import Mathlib.Tactic.Common

/-! `while` loops with a measure that falls in every pass. -/

structure WhileLoop (σ : Type) where
  guard : σ → Bool
  body : σ → σ
  measure : σ → Nat
  decreases : ∀ s, guard s = true → measure (body s) < measure s

namespace WhileLoop

variable {σ : Type} {L : WhileLoop σ} {s t : σ} {I : σ → Prop} {f : σ → Nat}

/-- The state the loop leaves. -/
def run (L : WhileLoop σ) (s : σ) : σ :=
  if _h : L.guard s = true then L.run (L.body s) else s
termination_by L.measure s
decreasing_by exact L.decreases s _h

/-- The states in which the passes start. -/
def passes (L : WhileLoop σ) (s : σ) : List σ :=
  if _h : L.guard s = true then s :: L.passes (L.body s) else []
termination_by L.measure s
decreasing_by exact L.decreases s _h

theorem run_of_guard (h : L.guard s = true) : L.run s = L.run (L.body s) := by
  conv_lhs => rw [run]
  exact dif_pos h

theorem run_of_done (h : ¬ L.guard s = true) : L.run s = s := by
  rw [run]
  exact dif_neg h

theorem passes_of_guard (h : L.guard s = true) : L.passes s = s :: L.passes (L.body s) := by
  conv_lhs => rw [passes]
  exact dif_pos h

theorem passes_of_done (h : ¬ L.guard s = true) : L.passes s = [] := by
  rw [passes]
  exact dif_neg h

/-- One pass, or none, decides what holds of a loop. -/
theorem loop_induction (L : WhileLoop σ) {P : σ → Prop} (hdone : ∀ s, ¬ L.guard s = true → P s)
    (hpass : ∀ s, L.guard s = true → P (L.body s) → P s) (s : σ) : P s := by
  by_cases h : L.guard s = true
  · exact hpass s h (loop_induction L hdone hpass (L.body s))
  · exact hdone s h
termination_by L.measure s
decreasing_by exact L.decreases s h

theorem guard_run (L : WhileLoop σ) (s : σ) : ¬ L.guard (L.run s) = true := by
  induction s using L.loop_induction with
  | hdone s h =>
    rw [run_of_done h]
    exact h
  | hpass s h ih =>
    rw [run_of_guard h]
    exact ih

/-- A pass starts in a state that the guard lets in. -/
theorem guard_of_mem_passes (ht : t ∈ L.passes s) : L.guard t = true := by
  induction s using L.loop_induction with
  | hdone s h => simp [passes_of_done h] at ht
  | hpass s h ih =>
    rw [passes_of_guard h] at ht
    rcases List.mem_cons.mp ht with rfl | ht
    · exact h
    · exact ih ht

section Invariant
variable (hstep : ∀ t, I t → L.guard t = true → I (L.body t))
include hstep

/-- What every pass keeps holds behind the loop. -/
theorem run_invariant (hs : I s) : I (L.run s) := by
  induction s using L.loop_induction with
  | hdone s h =>
    rw [run_of_done h]
    exact hs
  | hpass s h ih =>
    rw [run_of_guard h]
    exact ih (hstep s hs h)

/-- A count that goes up by one in every pass counts the passes. -/
theorem run_counts (hcount : ∀ t, I t → L.guard t = true → f (L.body t) = f t + 1) (hs : I s) :
    f (L.run s) = f s + (L.passes s).length := by
  induction s using L.loop_induction with
  | hdone s h =>
    rw [run_of_done h, passes_of_done h]
    rfl
  | hpass s h ih =>
    have hrest := ih (hstep s hs h)
    have hone := hcount s hs h
    rw [run_of_guard h, passes_of_guard h, List.length_cons]
    omega

end Invariant

end WhileLoop
