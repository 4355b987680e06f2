import Mathlib.Algebra.Ring.Nat
import ExtProc.Machine

/-! What the turns of a run cost, and states that hold enough to pay for them. -/
namespace Machine

variable {σ μ ρ : Type} {M : Machine σ μ ρ} {s : σ} {m : μ} {ms : List μ} {t : Turn σ μ ρ}
  {ts pre mid post : List (Turn σ μ ρ)} {f g : Turn σ μ ρ → Nat} {held : σ → Nat}
  {grants : μ → Bool} {b : Nat}

/-- What turns cost together. -/
def cost (f : Turn σ μ ρ → Nat) (turns : List (Turn σ μ ρ)) : Nat := (turns.map f).sum

@[simp] theorem cost_nil : cost f ([] : List (Turn σ μ ρ)) = 0 := rfl
@[simp] theorem cost_cons : cost f (t :: ts) = f t + cost f ts := by simp [cost]
@[simp] theorem cost_append : cost f (pre ++ post) = cost f pre + cost f post := by simp [cost]

/-- Two costs agree at every point of a run exactly when they agree on every turn. -/
theorem cost_eq_on_prefixes_iff :
    (∀ pre post, ts = pre ++ post → cost f pre = cost g pre) ↔ ∀ t ∈ ts, f t = g t := by
  constructor
  · intro h t ht
    obtain ⟨pre, post, rfl⟩ := List.append_of_mem ht
    have hbefore := h pre (t :: post) rfl
    have hafter := h (pre ++ [t]) post (by simp)
    simp only [cost_append, cost_cons, cost_nil] at hafter
    omega
  · rintro h pre post rfl
    have hpre : pre.map f = pre.map g :=
      List.map_congr_left fun t ht => h t (List.mem_append_left _ ht)
    rw [cost, cost, hpre]

/-- The rest of a run is a run. -/
theorem exists_run_of_append (h : M.run s ms = pre ++ post) : ∃ u ns, M.run u ns = post := by
  induction pre generalizing s ms with
  | nil => exact ⟨s, ms, h⟩
  | cons t pre ih =>
    cases ms with
    | nil => cases h
    | cons m ms =>
      obtain ⟨-, hrest | ⟨-, hrest⟩⟩ := run_cons_eq_cons h
      · obtain ⟨-, rfl⟩ := List.append_eq_nil_iff.mp hrest
        exact ⟨s, [], rfl⟩
      · exact ih hrest

/-- A turn and what it leaves in hand are paid from what the state held, or from a grant that
takes its place. -/
structure Paid (M : Machine σ μ ρ) (f : Turn σ μ ρ → Nat) (held : σ → Nat) (grants : μ → Bool)
    (b : Nat) : Prop where
  held_le : ∀ s, held s ≤ b
  turn : ∀ s m, f (M.turn s m) ≤ if grants m then b else held s
  goes : ∀ s m, M.fails (M.turn s m).reply = false →
    f (M.turn s m) + held (M.turn s m).after ≤ if grants m then b else held s

/-- A run costs no more than what the first state held and the grants. -/
theorem Paid.total (h : M.Paid f held grants b) (hrun : M.run s ms = pre ++ post) :
    cost f pre ≤ held s + b * pre.countP fun t => grants t.message := by
  induction pre generalizing s ms with
  | nil => simp
  | cons t pre ih =>
    cases ms with
    | nil => cases hrun
    | cons m ms =>
      obtain ⟨rfl, hrest⟩ := run_cons_eq_cons hrun
      have hturn := h.turn s m
      have hpre : f (M.turn s m) + cost f pre ≤
          (if grants m then b else held s) + b * pre.countP fun t => grants t.message := by
        rcases hrest with hnil | ⟨hok, hrest⟩
        · obtain ⟨rfl, -⟩ := List.append_eq_nil_iff.mp hnil
          simpa using hturn
        · have htail := ih hrest
          have hgoes := h.goes s m hok
          omega
      cases hg : grants m with
      | true =>
        have hcount : (M.turn s m :: pre).countP (fun t => grants t.message) =
            pre.countP (fun t => grants t.message) + 1 := by simp [hg]
        rw [hg, if_pos rfl] at hpre
        rw [hcount, cost_cons, Nat.mul_succ]
        omega
      | false => simpa [hg] using hpre

/-- From one turn up to the next grant, no more than one grant is spent. -/
theorem Paid.stretch (h : M.Paid f held grants b)
    (hrun : M.run s ms = pre ++ t :: (mid ++ post)) (hmid : ∀ u ∈ mid, grants u.message = false) :
    cost f (t :: mid) ≤ b := by
  obtain ⟨u, ns, htail⟩ := exists_run_of_append hrun
  cases ns with
  | nil => cases htail
  | cons m ns =>
    obtain ⟨rfl, hrest⟩ := run_cons_eq_cons htail
    have hallowed : (if grants m then b else held u) ≤ b := by
      split
      · exact Nat.le_refl b
      · exact h.held_le u
    have hturn := h.turn u m
    rcases hrest with hnil | ⟨hok, hrest⟩
    · obtain ⟨rfl, -⟩ := List.append_eq_nil_iff.mp hnil
      simp only [cost_cons, cost_nil]
      omega
    · have hcount : mid.countP (fun t => grants t.message) = 0 := by
        simpa [List.countP_eq_zero] using hmid
      have htotal := h.total hrest
      have hgoes := h.goes u m hok
      rw [hcount] at htotal
      simp only [cost_cons]
      omega

end Machine
