import Mathlib.Tactic.Common

/-! Programs that read and write a state and may fail. What a program wrote before
it failed stays written, as with a `&mut` argument of a function that returns `Err`. -/
namespace Exec

variable {σ ε α β : Type} {s t : σ}

abbrev Prog (σ ε α : Type) := ExceptT ε (StateM σ) α

/-- The outcome of a program and the state it leaves. -/
def exec (x : Prog σ ε α) (s : σ) : Except ε α × σ := (ExceptT.run x).run s

@[simp] theorem exec_pure (a : α) : exec (pure a : Prog σ ε α) s = (.ok a, s) := rfl

@[simp] theorem exec_throw (e : ε) : exec (throw e : Prog σ ε α) s = (.error e, s) := rfl

theorem exec_bind (x : Prog σ ε α) (f : α → Prog σ ε β) :
    exec (x >>= f) s = match exec x s with
      | (.ok a, t) => exec (f a) t
      | (.error e, t) => (.error e, t) := by
  simp only [exec, ExceptT.run_bind, StateT.run_bind]
  cases h : (ExceptT.run x).run s with
  | mk r t => cases r <;> rfl

@[simp] theorem exec_map (x : Prog σ ε α) (f : α → β) :
    exec (f <$> x) s = match exec x s with
      | (.ok a, t) => (.ok (f a), t)
      | (.error e, t) => (.error e, t) := by
  simp only [map_eq_pure_bind, exec_bind]
  rfl

@[simp] theorem exec_tryCatch (x : Prog σ ε α) (f : ε → Prog σ ε α) :
    exec (tryCatch x f) s = match exec x s with
      | (.ok a, t) => (.ok a, t)
      | (.error e, t) => exec (f e) t := by
  change (ExceptT.run (ExceptT.tryCatch x f)).run s = _
  simp only [ExceptT.tryCatch, ExceptT.run_mk, StateT.run_bind]
  cases h : exec x s with
  | mk r t =>
    change StateT.run x s = (r, t) at h
    rw [h]
    cases r <;> rfl

end Exec
