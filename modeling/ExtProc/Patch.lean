import Mathlib.Data.List.Nodup
import Mathlib.Logic.Function.Basic
import Mathlib.Tactic.Common

/-! Edit scripts for finite maps: delete some keys, then write bindings in order. -/

structure Patch (κ ν : Type) where
  remove : List κ
  set : List (κ × ν)

namespace Patch

variable {κ ν : Type} [DecidableEq κ] {k : κ} {v : ν} {l l' : List (κ × ν)}

/-- The map a list of bindings stands for; a later binding of a key hides an earlier one. -/
def bind (l : List (κ × ν)) (f : κ → Option ν) : κ → Option ν :=
  l.foldl (fun g b => Function.update g b.1 (some b.2)) f

def ofList (l : List (κ × ν)) : κ → Option ν := bind l fun _ => none

def apply (p : Patch κ ν) (f : κ → Option ν) : κ → Option ν :=
  bind p.set fun k => if k ∈ p.remove then none else f k

theorem bind_of_notMem {f : κ → Option ν} (h : k ∉ l.map Prod.fst) : bind l f k = f k := by
  induction l generalizing f with
  | nil => rfl
  | cons b l ih =>
    rw [List.map_cons, List.mem_cons, not_or] at h
    exact (ih h.2).trans (Function.update_of_ne h.1 _ _)

theorem bind_of_mem {f : κ → Option ν} (hn : (l.map Prod.fst).Nodup) (h : (k, v) ∈ l) :
    bind l f k = some v := by
  induction l generalizing f with
  | nil => simp at h
  | cons b l ih =>
    rw [List.map_cons, List.nodup_cons] at hn
    obtain rfl | h := List.mem_cons.mp h
    · exact (bind_of_notMem hn.1).trans (Function.update_self _ _ _)
    · exact ih hn.2 h

theorem ofList_eq_some_iff (hn : (l.map Prod.fst).Nodup) :
    ofList l k = some v ↔ (k, v) ∈ l := by
  constructor
  · intro h
    by_cases hk : k ∈ l.map Prod.fst
    · obtain ⟨⟨k, w⟩, hw, rfl⟩ := List.mem_map.mp hk
      have hb : ofList l k = some w := bind_of_mem hn hw
      have hwv : w = v := Option.some.inj (hb.symm.trans h)
      exact hwv ▸ hw
    · have hb : ofList l k = none := bind_of_notMem hk
      simp [hb] at h
  · exact bind_of_mem hn

theorem bind_eq_none_iff {f : κ → Option ν} :
    bind l f k = none ↔ k ∉ l.map Prod.fst ∧ f k = none := by
  induction l generalizing f with
  | nil => simp [bind]
  | cons b l ih =>
    have hb : bind (b :: l) f = bind l (Function.update f b.1 (some b.2)) := rfl
    rw [hb, ih, List.map_cons, List.mem_cons, Function.update_apply]
    split
    · next he => simp [he]
    · next he => simp [he]

theorem ofList_eq_none_iff : ofList l k = none ↔ k ∉ l.map Prod.fst := by
  simp [ofList, bind_eq_none_iff]

/-- A script that deletes the keys of `l` that `l'` lacks and writes the bindings of `l'` that
`l` lacks. -/
structure Leads (p : Patch κ ν) (l l' : List (κ × ν)) : Prop where
  nodup : (l.map Prod.fst).Nodup
  nodup' : (l'.map Prod.fst).Nodup
  nodupSet : (p.set.map Prod.fst).Nodup
  remove : ∀ k, k ∈ p.remove ↔ k ∈ l.map Prod.fst ∧ k ∉ l'.map Prod.fst
  set : ∀ k v, (k, v) ∈ p.set ↔ (k, v) ∈ l' ∧ (k, v) ∉ l

/-- It leads from the one map to the other. -/
theorem Leads.apply_ofList {p : Patch κ ν} (h : p.Leads l l') :
    p.apply (ofList l) = ofList l' := by
  funext k
  cases h' : ofList l' k with
  | none =>
    have hk' := ofList_eq_none_iff.mp h'
    have hkset : k ∉ p.set.map Prod.fst := by
      intro hk
      obtain ⟨⟨k, v⟩, hv, rfl⟩ := List.mem_map.mp hk
      exact hk' (List.mem_map_of_mem ((h.set k v).mp hv).1)
    rw [apply, bind_of_notMem hkset]
    split
    · rfl
    · next hr => exact ofList_eq_none_iff.mpr fun hk => hr ((h.remove k).mpr ⟨hk, hk'⟩)
  | some v =>
    have hv := (ofList_eq_some_iff h.nodup').mp h'
    have hkept : k ∉ p.remove := fun hr => ((h.remove k).mp hr).2 (List.mem_map_of_mem hv)
    by_cases hold : (k, v) ∈ l
    · have hkset : k ∉ p.set.map Prod.fst := by
        intro hk
        obtain ⟨⟨k, w⟩, hw, rfl⟩ := List.mem_map.mp hk
        obtain ⟨hw', hnot⟩ := (h.set k w).mp hw
        have hw : ofList l' k = some w := (ofList_eq_some_iff h.nodup').mpr hw'
        have hvw : v = w := Option.some.inj (h'.symm.trans hw)
        exact hnot (hvw ▸ hold)
      rw [apply, bind_of_notMem hkset, if_neg hkept]
      exact (ofList_eq_some_iff h.nodup).mpr hold
    · exact bind_of_mem h.nodupSet ((h.set k v).mpr ⟨hv, hold⟩)

/-- It touches no key on which the maps agree. -/
theorem Leads.untouched {p : Patch κ ν} (h : p.Leads l l') (hk : ofList l k = ofList l' k) :
    k ∉ p.remove ∧ k ∉ p.set.map Prod.fst := by
  constructor
  · intro hr
    obtain ⟨hmem, hno⟩ := (h.remove k).mp hr
    exact ofList_eq_none_iff.mp (hk.trans (ofList_eq_none_iff.mpr hno)) hmem
  · intro hs
    obtain ⟨⟨k, v⟩, hv, rfl⟩ := List.mem_map.mp hs
    obtain ⟨hnew, hold⟩ := (h.set k v).mp hv
    exact hold ((ofList_eq_some_iff h.nodup).mp
      (hk.trans ((ofList_eq_some_iff h.nodup').mpr hnew)))

section Cells
variable {σ : Type} {keys : List κ} {empty : σ} {write : ν → σ → σ}

/-- Each binding in turn updates the cell of its key. -/
def writeAll (write : ν → σ → σ) (l : List (κ × ν)) (f : κ → σ) : κ → σ :=
  l.foldl (fun g b => Function.update g b.1 (write b.2 (g b.1))) f

def eraseAll (keys : List κ) (empty : σ) (f : κ → σ) : κ → σ :=
  fun k => if k ∈ keys then empty else f k

theorem update_eraseAll {f : κ → σ} {c : σ} (h : k ∉ keys) :
    Function.update (eraseAll keys empty f) k c = eraseAll keys empty (Function.update f k c) := by
  funext j
  by_cases hj : j = k
  · subst hj
    simp [eraseAll, h]
  · simp [eraseAll, hj]

/-- Erased keys and written keys apart, the order does not matter. -/
theorem writeAll_eraseAll (h : ∀ b ∈ l, b.1 ∉ keys) (f : κ → σ) :
    writeAll write l (eraseAll keys empty f) = eraseAll keys empty (writeAll write l f) := by
  induction l generalizing f with
  | nil => rfl
  | cons b l ih =>
    have hb : b.1 ∉ keys := h b List.mem_cons_self
    have hcell : eraseAll keys empty f b.1 = f b.1 := if_neg hb
    calc writeAll write (b :: l) (eraseAll keys empty f)
      _ = writeAll write l (Function.update (eraseAll keys empty f) b.1 (write b.2 (f b.1))) := by
        rw [← hcell]
        rfl
      _ = writeAll write l (eraseAll keys empty (Function.update f b.1 (write b.2 (f b.1)))) := by
        rw [update_eraseAll hb]
      _ = eraseAll keys empty (writeAll write (b :: l) f) :=
        ih (fun b' hb' => h b' (List.mem_cons_of_mem b hb')) _

end Cells

end Patch
