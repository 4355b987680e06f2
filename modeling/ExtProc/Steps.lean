import Mathlib.Data.Fintype.Basic
import Mathlib.Algebra.BigOperators.Group.Finset.Basic
import Mathlib.Algebra.Order.BigOperators.Group.Finset
import Mathlib.Logic.Relation
import Mathlib.Order.RelClasses

/-! Systems whose actors take steps in any order, and copies of one system side by side. -/
namespace Steps

variable {σ α ι : Type} {step : α → σ → σ → Prop} {s t u : σ} {a : α}

/-- Some actor takes a step. -/
def Any (step : α → σ → σ → Prop) (s t : σ) : Prop := ∃ a, step a s t

/-- A state that some order of steps leads to. -/
abbrev Reaches (step : α → σ → σ → Prop) : σ → σ → Prop := Relation.ReflTransGen (Any step)

theorem Reaches.next (h : Reaches step s t) (hstep : step a t u) : Reaches step s u :=
  h.tail ⟨a, hstep⟩

/-- What every step keeps holds in every reachable state. -/
theorem Reaches.keeps {P : σ → Prop} (h : Reaches step s t)
    (hstep : ∀ a s t, P s → step a s t → P t) (hs : P s) : P t := by
  induction h with
  | refl => exact hs
  | tail hreach hnext ih =>
    obtain ⟨a, hnext⟩ := hnext
    exact hstep a _ _ ih hnext

/-- No actor can go on. -/
def Stuck (step : α → σ → σ → Prop) (s : σ) : Prop := ∀ a t, ¬ step a s t

section Measure
variable {β : Type} [LT β] [WellFoundedLT β] {rank : σ → β}

/-- A rank that every step lowers allows no endless run. -/
theorem wellFounded_of_rank (hrank : ∀ a s t, step a s t → rank t < rank s) :
    WellFounded fun t s => Any step s t := by
  refine Subrelation.wf ?_ (InvImage.wf rank wellFounded_lt)
  rintro t s ⟨a, hstep⟩
  exact hrank a s t hstep

/-- Where every step lowers a rank, every state reaches one where no actor can go on. -/
theorem exists_stuck (hrank : ∀ a s t, step a s t → rank t < rank s) (s : σ) :
    ∃ t, Reaches step s t ∧ Stuck step t := by
  induction s using (wellFounded_of_rank hrank).induction with
  | _ s ih =>
    by_cases hs : Stuck step s
    · exact ⟨s, .refl, hs⟩
    · obtain ⟨a, t, hstep⟩ : ∃ a t, step a s t := by
        by_contra hnone
        exact hs fun a t hstep => hnone ⟨a, t, hstep⟩
      obtain ⟨u, hreach, hu⟩ := ih t ⟨a, hstep⟩
      exact ⟨u, .head ⟨a, hstep⟩ hreach, hu⟩

end Measure

section Beside
variable [DecidableEq ι] {c d : ι → σ} {i : ι}

/-- One of the copies takes a step, the others stand still. -/
inductive Beside (step : α → σ → σ → Prop) : ι × α → (ι → σ) → (ι → σ) → Prop
  | one {c : ι → σ} (i : ι) {a : α} {t : σ} (h : step a (c i) t) :
      Beside step (i, a) c (Function.update c i t)

/-- Each copy goes through the states it would go through alone. -/
theorem Reaches.alone (h : Reaches (Beside step) c d) (i : ι) : Reaches step (c i) (d i) := by
  induction h with
  | refl => exact .refl
  | tail hreach hnext ih =>
    obtain ⟨⟨j, a⟩, hnext⟩ := hnext
    cases hnext with
    | @one c' j a t h =>
      by_cases hij : i = j
      · subst hij
        rw [Function.update_self]
        exact ih.tail ⟨a, h⟩
      · rw [Function.update_of_ne hij]
        exact ih

/-- The ranks of finitely many copies add up to a rank of them all. -/
theorem Beside.rank_lt [Fintype ι] {rank : σ → Nat}
    (hrank : ∀ a s t, step a s t → rank t < rank s) {ia : ι × α} (h : Beside step ia c d) :
    ∑ j, rank (d j) < ∑ j, rank (c j) := by
  cases h with
  | one i h =>
    refine Finset.sum_lt_sum ?_ ⟨i, Finset.mem_univ i, ?_⟩
    · intro j _
      by_cases hji : j = i
      · subst hji
        rw [Function.update_self]
        exact (hrank _ _ _ h).le
      · rw [Function.update_of_ne hji]
    · rw [Function.update_self]
      exact hrank _ _ _ h

/-- A step of one copy adds to a sum over them all what it adds in that copy. -/
theorem sum_update_add [Fintype ι] {f : σ → Nat} {k : Nat} (c : ι → σ) (h : f t = f (c i) + k) :
    ∑ j, f (Function.update c i t j) = ∑ j, f (c j) + k := by
  have hrest : ∑ j ∈ Finset.univ.erase i, f (Function.update c i t j) =
      ∑ j ∈ Finset.univ.erase i, f (c j) := by
    refine Finset.sum_congr rfl ?_
    intro j hj
    rw [Function.update_of_ne (Finset.ne_of_mem_erase hj)]
  rw [← Finset.add_sum_erase _ _ (Finset.mem_univ i), hrest, Function.update_self, h,
    ← Finset.add_sum_erase _ (fun j => f (c j)) (Finset.mem_univ i)]
  omega

end Beside

end Steps
