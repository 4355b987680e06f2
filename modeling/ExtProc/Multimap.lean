import Mathlib.Data.List.Nodup
import Mathlib.Tactic.Common
import ExtProc.Keyed

/-! Multimaps that keep the keys in the order of their first value and the values of
one key together, in the order they were added. -/

structure Multimap (κ ν : Type) where
  entries : List (κ × List ν)
  nodup : (entries.map Prod.fst).Nodup
  nonempty : ∀ e ∈ entries, e.2 ≠ []

namespace Multimap

variable {κ ν : Type} {m n : Multimap κ ν} {k k' : κ} {v : ν}

def empty : Multimap κ ν := ⟨[], List.nodup_nil, by simp⟩

/-- One pair for each value. -/
def iter (m : Multimap κ ν) : List (κ × ν) :=
  m.entries.flatMap fun e => e.2.map fun v => (e.1, v)

def keys (m : Multimap κ ν) : List κ := m.entries.map Prod.fst

/-- A key is in the map when it has a value. -/
theorem mem_keys : k ∈ m.keys ↔ ∃ v, (k, v) ∈ m.iter := by
  simp only [keys, iter, List.mem_map, List.mem_flatMap]
  constructor
  · rintro ⟨e, he, rfl⟩
    obtain ⟨v, hv⟩ := List.exists_mem_of_ne_nil _ (m.nonempty e he)
    exact ⟨v, e, he, v, hv, rfl⟩
  · rintro ⟨v, e, he, w, -, hw⟩
    exact ⟨e, he, congrArg Prod.fst hw⟩

section Lookup
variable [DecidableEq κ]

/-- The values of a key, in order. -/
def getAll (m : Multimap κ ν) (k : κ) : List ν :=
  (m.iter.filter fun p => p.1 = k).map Prod.snd

def get (m : Multimap κ ν) (k : κ) : Option ν := (m.getAll k).head?

def containsKey (m : Multimap κ ν) (k : κ) : Bool := k ∈ m.keys

/-- Two maps are the same when every key has the same values in the same order. -/
def Same (m n : Multimap κ ν) : Prop := ∀ k, m.getAll k = n.getAll k

@[simp] theorem mem_getAll : v ∈ m.getAll k ↔ (k, v) ∈ m.iter := by
  simp [getAll]

theorem getAll_ne_nil : m.getAll k ≠ [] ↔ k ∈ m.keys := by
  rw [mem_keys]
  constructor
  · intro h
    obtain ⟨v, hv⟩ := List.exists_mem_of_ne_nil _ h
    exact ⟨v, mem_getAll.mp hv⟩
  · rintro ⟨v, hv⟩
    exact List.ne_nil_of_mem (mem_getAll.mpr hv)

theorem Same.mem_keys (h : m.Same n) : k ∈ m.keys ↔ k ∈ n.keys := by
  rw [← getAll_ne_nil, ← getAll_ne_nil, h k]

/-- The entries after `v` is added under `k`: behind the values `k` has, or at the end. -/
def appendEntries (k : κ) (v : ν) : List (κ × List ν) → List (κ × List ν)
  | [] => [(k, [v])]
  | e :: es => if e.1 = k then (e.1, e.2 ++ [v]) :: es else e :: appendEntries k v es

theorem mem_appendEntries_fst {es : List (κ × List ν)} :
    k' ∈ (appendEntries k v es).map Prod.fst ↔ k' = k ∨ k' ∈ es.map Prod.fst := by
  induction es with
  | nil => simp [appendEntries]
  | cons e es ih =>
    by_cases he : e.1 = k
    · simp [appendEntries, he]
    · simp only [appendEntries, if_neg he, List.map_cons, List.mem_cons, ih]
      tauto

theorem nodup_appendEntries {es : List (κ × List ν)} (h : (es.map Prod.fst).Nodup) :
    ((appendEntries k v es).map Prod.fst).Nodup := by
  induction es with
  | nil => simp [appendEntries]
  | cons e es ih =>
    simp only [List.map_cons, List.nodup_cons] at h
    by_cases he : e.1 = k
    · simpa only [appendEntries, if_pos he, List.map_cons, List.nodup_cons] using h
    · simp only [appendEntries, if_neg he, List.map_cons, List.nodup_cons, mem_appendEntries_fst]
      exact ⟨fun hor => hor.elim he h.1, ih h.2⟩

theorem nonempty_appendEntries {es : List (κ × List ν)} (h : ∀ e ∈ es, e.2 ≠ []) :
    ∀ e ∈ appendEntries k v es, e.2 ≠ [] := by
  induction es with
  | nil => simp [appendEntries]
  | cons e es ih =>
    rw [List.forall_mem_cons] at h
    by_cases he : e.1 = k
    · simpa [appendEntries, he] using h.2
    · simp only [appendEntries, if_neg he, List.forall_mem_cons]
      exact ⟨h.1, ih h.2⟩

def append (m : Multimap κ ν) (k : κ) (v : ν) : Multimap κ ν :=
  ⟨appendEntries k v m.entries, nodup_appendEntries m.nodup, nonempty_appendEntries m.nonempty⟩

theorem appendEntries_of_notMem {es : List (κ × List ν)} (h : k ∉ es.map Prod.fst) :
    appendEntries k v es = es ++ [(k, [v])] := by
  induction es with
  | nil => rfl
  | cons e es ih =>
    simp only [List.map_cons, List.mem_cons, not_or] at h
    have he : e.1 ≠ k := Ne.symm h.1
    simp only [appendEntries, if_neg he, ih h.2, List.cons_append]

/-- A value under a new key comes last. -/
theorem iter_append_of_notMem (h : k ∉ m.keys) : (m.append k v).iter = m.iter ++ [(k, v)] := by
  have hentries : (m.append k v).entries = m.entries ++ [(k, [v])] := appendEntries_of_notMem h
  simp [iter, hentries]

/-- A key that does not repeat has one value. -/
theorem getAll_eq_singleton (hn : (m.iter.map Prod.fst).Nodup) (h : (k, v) ∈ m.iter) :
    m.getAll k = [v] := by
  have hone := Keyed.filter_eq_singleton hn h
  rw [getAll, hone]
  rfl

/-- The values of a key among the pairs of some entries. -/
def valuesOf (k : κ) (es : List (κ × List ν)) : List ν :=
  ((es.flatMap fun e => e.2.map fun v => (e.1, v)).filter fun p => p.1 = k).map Prod.snd

theorem valuesOf_cons (e : κ × List ν) (es : List (κ × List ν)) :
    valuesOf k (e :: es) = (if e.1 = k then e.2 else []) ++ valuesOf k es := by
  by_cases he : e.1 = k
  · simp [valuesOf, he, List.filter_map, Function.comp_def]
  · simp [valuesOf, he, List.filter_map, Function.comp_def]

theorem valuesOf_of_notMem {es : List (κ × List ν)} (h : k ∉ es.map Prod.fst) :
    valuesOf k es = [] := by
  induction es with
  | nil => rfl
  | cons e es ih =>
    simp only [List.map_cons, List.mem_cons, not_or] at h
    have he : e.1 ≠ k := Ne.symm h.1
    rw [valuesOf_cons, if_neg he, ih h.2, List.append_nil]

theorem valuesOf_appendEntries {es : List (κ × List ν)} (hn : (es.map Prod.fst).Nodup) :
    valuesOf k' (appendEntries k v es) = valuesOf k' es ++ if k' = k then [v] else [] := by
  induction es with
  | nil =>
    rw [appendEntries, valuesOf_cons]
    simp [valuesOf, eq_comm]
  | cons e es ih =>
    simp only [List.map_cons, List.nodup_cons] at hn
    by_cases he : e.1 = k
    · rw [appendEntries, if_pos he, valuesOf_cons, valuesOf_cons]
      by_cases hk : k' = k
      · subst hk
        have hlater : valuesOf k' es = [] := valuesOf_of_notMem (he ▸ hn.1)
        simp [he, hlater]
      · have hne : k ≠ k' := Ne.symm hk
        simp [he, hk, hne]
    · rw [appendEntries, if_neg he, valuesOf_cons, valuesOf_cons, ih hn.2, List.append_assoc]

/-- An added value comes behind the values its key has, and other keys keep theirs. -/
theorem getAll_append : (m.append k v).getAll k' = m.getAll k' ++ if k' = k then [v] else [] :=
  valuesOf_appendEntries m.nodup

end Lookup

end Multimap
