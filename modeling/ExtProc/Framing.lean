import ExtProc.Exec

/-! Programs that a change of the state goes past: it may come before or behind them. -/
namespace Exec

variable {σ ε α β : Type} {f : σ → σ} {x : Prog σ ε α} {k : α → Prog σ ε β} {s : σ}

/-- The program answers alike with the state changed and unchanged, and its own writes and the
change leave no trace of their order. -/
def Commutes (f : σ → σ) (x : Prog σ ε α) : Prop :=
  ∀ s, exec x (f s) = ((exec x s).1, f (exec x s).2)

theorem Commutes.pure {a : α} : Commutes f (pure a : Prog σ ε α) := fun _ => rfl

theorem Commutes.throw {e : ε} : Commutes f (throw e : Prog σ ε α) := fun _ => rfl

theorem Commutes.bind (hx : Commutes f x) (hk : ∀ a, Commutes f (k a)) :
    Commutes f (x >>= k) := by
  intro s
  rw [exec_bind, exec_bind, hx s]
  cases hran : exec x s with
  | mk r t =>
    cases r with
    | ok a => exact hk a t
    | error e => rfl

/-- What a program reads first may change, if it does not look at the change. -/
theorem Commutes.read_bind {r : Prog σ ε α} {g : σ → α} (hr : ∀ s, exec r s = (.ok (g s), s))
    (hread : ∀ s, k (g (f s)) = k (g s)) (hk : ∀ a, Commutes f (k a)) :
    Commutes f (r >>= k) := by
  intro s
  rw [exec_bind, exec_bind, hr, hr]
  simp only [hread]
  exact hk (g s) s

theorem Commutes.write {x : Prog σ ε PUnit} {g : σ → σ} (hx : ∀ s, exec x s = (.ok ⟨⟩, g s))
    (h : ∀ s, g (f s) = f (g s)) : Commutes f x := by
  intro s
  rw [hx, hx, h]

end Exec
