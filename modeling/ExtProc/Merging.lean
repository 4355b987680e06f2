import ExtProc.Interleaving

/-! Message lists that a machine cannot tell apart by the replies that show. -/
namespace Machine

variable {σ μ ρ : Type} {M : Machine σ μ ρ} {shows : ρ → Bool} {s : σ} {x y z m : μ}
  {ms xs ys zs : List μ}

/-- Both lists get the same replies that show, are accepted together, and then leave the same
state. -/
structure Agree (M : Machine σ μ ρ) (shows : ρ → Bool) (xs ys : List μ) : Prop where
  replies : ∀ s, (M.replies s xs).filter shows = (M.replies s ys).filter shows
  accepts : ∀ s, M.Accepts s xs ↔ M.Accepts s ys
  final : ∀ s, M.Accepts s xs → M.final s xs = M.final s ys

theorem Agree.refl (xs : List μ) : M.Agree shows xs xs :=
  ⟨fun _ => rfl, fun _ => Iff.rfl, fun _ _ => rfl⟩

theorem Agree.symm (h : M.Agree shows xs ys) : M.Agree shows ys xs := by
  refine ⟨fun s => (h.replies s).symm, fun s => (h.accepts s).symm, ?_⟩
  intro s hs
  exact (h.final s ((h.accepts s).mpr hs)).symm

theorem Agree.trans (h : M.Agree shows xs ys) (h' : M.Agree shows ys zs) :
    M.Agree shows xs zs := by
  refine ⟨fun s => (h.replies s).trans (h'.replies s),
    fun s => (h.accepts s).trans (h'.accepts s), ?_⟩
  intro s hs
  exact (h.final s hs).trans (h'.final s ((h.accepts s).mp hs))

/-- The same message in front keeps lists that agree in agreement. -/
theorem Agree.cons (m : μ) (h : M.Agree shows xs ys) : M.Agree shows (m :: xs) (m :: ys) := by
  refine ⟨?_, ?_, ?_⟩
  · intro s
    cases hm : M.fails (M.step s m).1 with
    | true => rw [replies_cons_of_fails hm, replies_cons_of_fails hm]
    | false =>
      rw [replies_cons hm, replies_cons hm, List.filter_cons, List.filter_cons, h.replies]
  · intro s
    rw [accepts_cons, accepts_cons, h.accepts]
  · intro s hs
    obtain ⟨hm, hrest⟩ := accepts_cons.mp hs
    rw [final_cons hm, final_cons hm]
    exact h.final _ hrest

/-- `z` does at once what `x` and `y` do in a row: `x` passes unseen, or it fails as `z` does. -/
structure Merges (M : Machine σ μ ρ) (shows : ρ → Bool) (x y z : μ) : Prop where
  refused : ∀ s, M.fails (M.step s x).1 = true → (M.step s z).1 = (M.step s x).1
  unseen : ∀ s, M.fails (M.step s x).1 = false → shows (M.step s x).1 = false
  reply : ∀ s, M.fails (M.step s x).1 = false →
    (M.step s z).1 = (M.step (M.step s x).2 y).1
  state : ∀ s, M.fails (M.step s x).1 = false → M.fails (M.step s z).1 = false →
    (M.step s z).2 = (M.step (M.step s x).2 y).2

theorem Merges.agree (h : M.Merges shows x y z) (ms : List μ) :
    M.Agree shows (x :: y :: ms) (z :: ms) := by
  refine ⟨?_, ?_, ?_⟩
  · intro s
    cases hx : M.fails (M.step s x).1 with
    | true =>
      have hz := h.refused s hx
      have hfails : M.fails (M.step s z).1 = true := by rw [hz]; exact hx
      rw [replies_cons_of_fails hx, replies_cons_of_fails hfails, hz]
    | false =>
      have hz := h.reply s hx
      rw [replies_cons hx, List.filter_cons_of_neg (by simp [h.unseen s hx])]
      cases hy : M.fails (M.step (M.step s x).2 y).1 with
      | true =>
        have hfails : M.fails (M.step s z).1 = true := by rw [hz]; exact hy
        rw [replies_cons_of_fails hy, replies_cons_of_fails hfails, hz]
      | false =>
        have hok : M.fails (M.step s z).1 = false := by rw [hz]; exact hy
        rw [replies_cons hy, replies_cons hok, h.state s hx hok, hz]
  · intro s
    rw [accepts_cons, accepts_cons, accepts_cons]
    cases hx : M.fails (M.step s x).1 with
    | true =>
      have hz := h.refused s hx
      simp [hz, hx]
    | false =>
      have hz := h.reply s hx
      constructor
      · rintro ⟨-, hy, hrest⟩
        have hok : M.fails (M.step s z).1 = false := by rw [hz]; exact hy
        exact ⟨hok, by rw [h.state s hx hok]; exact hrest⟩
      · rintro ⟨hok, hrest⟩
        refine ⟨rfl, by rw [← hz]; exact hok, ?_⟩
        rw [← h.state s hx hok]
        exact hrest
  · intro s hs
    obtain ⟨hx, hrest⟩ := accepts_cons.mp hs
    obtain ⟨hy, -⟩ := accepts_cons.mp hrest
    have hok : M.fails (M.step s z).1 = false := by rw [h.reply s hx]; exact hy
    rw [final_cons hx, final_cons hy, final_cons hok, h.state s hx hok]

/-- A message in front of a list, joined with the first one there if the two can be joined. -/
def mergeHead (join : μ → μ → Option μ) (m : μ) : List μ → List μ
  | [] => [m]
  | n :: ns =>
    match join m n with
    | some j => j :: ns
    | none => m :: n :: ns

def merge (join : μ → μ → Option μ) (ms : List μ) : List μ := ms.foldr (mergeHead join) []

theorem mergeHead_agrees {join : μ → μ → Option μ}
    (hjoin : ∀ x y z, join x y = some z → M.Merges shows x y z) (m : μ) (ns : List μ) :
    M.Agree shows (m :: ns) (mergeHead join m ns) := by
  cases ns with
  | nil => exact .refl [m]
  | cons n ns =>
    cases hmn : join m n with
    | none =>
      simp only [mergeHead, hmn]
      exact .refl _
    | some j =>
      simp only [mergeHead, hmn]
      exact (hjoin m n j hmn).agree ns

theorem merge_agrees {join : μ → μ → Option μ}
    (hjoin : ∀ x y z, join x y = some z → M.Merges shows x y z) (ms : List μ) :
    M.Agree shows ms (merge join ms) := by
  induction ms with
  | nil => exact .refl []
  | cons m ms ih => exact (ih.cons m).trans (mergeHead_agrees hjoin m (merge join ms))

/-- Lists that merge into the same list agree. -/
theorem agree_of_merge_eq {join : μ → μ → Option μ}
    (hjoin : ∀ x y z, join x y = some z → M.Merges shows x y z)
    (h : merge join xs = merge join ys) : M.Agree shows xs ys := by
  have hx := merge_agrees (M := M) hjoin xs
  have hy := merge_agrees (M := M) hjoin ys
  rw [← h] at hy
  exact hx.trans hy.symm

end Machine
