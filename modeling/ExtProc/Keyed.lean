import Mathlib.Data.List.AList
import Mathlib.Data.List.Induction
import Mathlib.Tactic.Common

/-! Lists whose elements have keys: repeated keys, and maps collected from pairs. -/

namespace Keyed

section Repeats
variable {α κ : Type} {key : α → κ} {l : List α} {a : α}

/-- The element is the first that repeats the key of an earlier one. -/
def FirstRepeat (key : α → κ) (l : List α) (a : α) : Prop :=
  ∃ before after, l = before ++ a :: after ∧ (before.map key).Nodup ∧ key a ∈ before.map key

theorem FirstRepeat.not_nodup (h : FirstRepeat key l a) : ¬ (l.map key).Nodup := by
  obtain ⟨before, after, rfl, -, hkey⟩ := h
  intro hn
  rw [List.map_append, List.map_cons, List.nodup_middle, List.nodup_cons] at hn
  exact hn.1 (List.mem_append_left _ hkey)

/-- A list that repeats a key has an element that does it first. -/
theorem exists_firstRepeat (h : ¬ (l.map key).Nodup) : ∃ a, FirstRepeat key l a := by
  induction l using List.reverseRecOn with
  | nil => exact (h List.nodup_nil).elim
  | append_singleton l b ih =>
    by_cases hl : (l.map key).Nodup
    · have hkey : key b ∈ l.map key := by
        by_contra hfresh
        apply h
        rw [List.map_append, List.map_singleton]
        exact hl.append (List.nodup_singleton _) (List.disjoint_singleton.mpr hfresh)
      exact ⟨b, l, [], rfl, hl, hkey⟩
    · obtain ⟨a, before, after, hsplit, hn, hkey⟩ := ih hl
      refine ⟨a, before, after ++ [b], ?_, hn, hkey⟩
      rw [hsplit, List.append_assoc, List.cons_append]

/-- A key repeats when two positions hold it. -/
theorem not_nodup_iff_positions : ¬ (l.map key).Nodup ↔
    ∃ (i j : Nat) (a b : α), i ≠ j ∧ l[i]? = some a ∧ l[j]? = some b ∧ key a = key b := by
  constructor
  · intro h
    obtain ⟨b, before, after, hsplit, -, hkey⟩ := exists_firstRepeat h
    obtain ⟨a, ha, hab⟩ := List.mem_map.mp hkey
    obtain ⟨i, hi⟩ := List.mem_iff_getElem?.mp ha
    have hlt : i < before.length := (List.getElem?_eq_some_iff.mp hi).1
    refine ⟨i, before.length, a, b, by omega, ?_, ?_, hab⟩
    · rw [hsplit, List.getElem?_append_left hlt, hi]
    · simp [hsplit]
  · intro h hn
    obtain ⟨i, j, a, b, hne, hi, hj, hab⟩ := h
    have hlt : i < (l.map key).length := by
      rw [List.length_map]
      exact (List.getElem?_eq_some_iff.mp hi).1
    have heq : (l.map key)[i]? = (l.map key)[j]? := by simp [hi, hj, hab]
    exact hne ((List.getElem?_inj hlt hn).mp heq)

/-- A key that does not repeat has one element. -/
theorem filter_eq_singleton [DecidableEq κ] (hn : (l.map key).Nodup) (h : a ∈ l) :
    l.filter (fun b => key b = key a) = [a] := by
  obtain ⟨before, after, hsplit⟩ := List.append_of_mem h
  rw [hsplit, List.map_append, List.map_cons, List.nodup_middle, List.nodup_cons,
    List.mem_append] at hn
  have hbefore : before.filter (fun b => key b = key a) = [] := by
    refine List.filter_eq_nil_iff.mpr fun b hb he => hn.1 (Or.inl ?_)
    exact List.mem_map.mpr ⟨b, hb, by simpa using he⟩
  have hafter : after.filter (fun b => key b = key a) = [] := by
    refine List.filter_eq_nil_iff.mpr fun b hb he => hn.1 (Or.inr ?_)
    exact List.mem_map.mpr ⟨b, hb, by simpa using he⟩
  rw [hsplit, List.filter_append, List.filter_cons_of_pos (by simp), hbefore, hafter]
  rfl

end Repeats

section Fold
variable {κ ν α β : Type} [DecidableEq α] {f : κ → α} {g : ν → β}

/-- Of the entries with one key, collecting keeps the last. -/
theorem lookup_foldl_insert [DecidableEq κ] (hf : Function.Injective f) (l : List (κ × ν)) (k : κ)
    (m : AList fun _ : α => β) :
    (l.foldl (fun m h => m.insert (f h.1) (g h.2)) m).lookup (f k) =
      (((l.filter fun h => h.1 = k).map Prod.snd).getLast?.map g).or (m.lookup (f k)) := by
  induction l generalizing m with
  | nil => simp
  | cons h l ih =>
    rw [List.foldl_cons, ih]
    by_cases hk : h.1 = k
    · subst hk
      simp only [AList.lookup_insert, decide_true, List.filter_cons_of_pos, List.map_cons,
        List.getLast?_cons]
      cases ((l.filter fun h' => h'.1 = h.1).map Prod.snd).getLast? <;> rfl
    · have hne : f k ≠ f h.1 := fun he => hk (hf he).symm
      rw [AList.lookup_insert_ne hne, List.filter_cons_of_neg (by simpa using hk)]

theorem mem_keys_foldl_insert (l : List (κ × ν)) (a : α) (m : AList fun _ : α => β) :
    a ∈ (l.foldl (fun m h => m.insert (f h.1) (g h.2)) m).keys ↔
      (∃ h ∈ l, a = f h.1) ∨ a ∈ m.keys := by
  induction l generalizing m with
  | nil => simp
  | cons h l ih =>
    rw [List.foldl_cons, ih, ← AList.mem_keys, AList.mem_insert, AList.mem_keys]
    simp only [List.mem_cons, exists_eq_or_imp]
    rw [or_assoc]
    exact or_left_comm

end Fold

section Pairs
variable {α β : Type} [DecidableEq α] {l : List (α × β)} {a : α} {b : β}

/-- The map of a list of pairs, where a later pair replaces an earlier one of its key. -/
def collect (l : List (α × β)) : AList fun _ : α => β :=
  l.foldl (fun m h => m.insert h.1 h.2) ∅

/-- No pair is lost when no key repeats. -/
theorem lookup_collect (hn : (l.map Prod.fst).Nodup) (h : (a, b) ∈ l) :
    (collect l).lookup a = some b := by
  have hfold := lookup_foldl_insert (f := id) (g := id) Function.injective_id l a ∅
  have hone := filter_eq_singleton hn h
  simpa [collect, hone] using hfold

theorem keys_collect_perm (hn : (l.map Prod.fst).Nodup) :
    (collect l).keys.Perm (l.map Prod.fst) := by
  apply (List.perm_ext_iff_of_nodup (AList.keys_nodup _) hn).mpr
  intro a
  have hfold := mem_keys_foldl_insert (f := id) (g := id) l a ∅
  simpa [collect, eq_comm] using hfold

end Pairs

end Keyed
