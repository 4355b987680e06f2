import Mathlib.Tactic.Common

/-! A bounded first-in first-out channel whose receiver may be dropped. -/

/-- The items in a channel, never more than its capacity, and whether its receiver lives. -/
structure Channel (α : Type) (capacity : Nat) where
  queue : List α
  bounded : queue.length ≤ capacity
  isOpen : Bool

namespace Channel

variable {α : Type} {capacity : Nat} {c : Channel α capacity} {x : α} {xs : List α}

def new : Channel α capacity := { queue := [], bounded := Nat.zero_le _, isOpen := true }

/-- An item joins a queue that has room for it. -/
def push (c : Channel α capacity) (x : α) (h : c.queue.length < capacity) : Channel α capacity where
  queue := c.queue ++ [x]
  bounded := by
    rw [List.length_append, List.length_singleton]
    exact h
  isOpen := c.isOpen

/-- The item in front is received. -/
def pop (c : Channel α capacity) (h : c.queue = x :: xs) : Channel α capacity where
  queue := xs
  bounded := by
    have hb := c.bounded
    rw [h, List.length_cons] at hb
    omega
  isOpen := c.isOpen

/-- The receiver is dropped, and what waited for it is lost. -/
def close (_ : Channel α capacity) : Channel α capacity :=
  { queue := [], bounded := Nat.zero_le _, isOpen := false }

@[simp] theorem push_queue (h : c.queue.length < capacity) :
    (c.push x h).queue = c.queue ++ [x] := rfl
@[simp] theorem push_isOpen (h : c.queue.length < capacity) : (c.push x h).isOpen = c.isOpen := rfl
@[simp] theorem pop_queue (h : c.queue = x :: xs) : (c.pop h).queue = xs := rfl
@[simp] theorem pop_isOpen (h : c.queue = x :: xs) : (c.pop h).isOpen = c.isOpen := rfl
@[simp] theorem close_queue : c.close.queue = [] := rfl
@[simp] theorem close_isOpen : c.close.isOpen = false := rfl

/-- A channel with room, or one whose receiver has something to take. -/
theorem room_or_item (c : Channel α capacity) (hcap : 0 < capacity) :
    c.queue.length < capacity ∨ ∃ x xs, c.queue = x :: xs := by
  cases hq : c.queue with
  | nil => exact Or.inl (by simpa using hcap)
  | cons x xs => exact Or.inr ⟨x, xs, rfl⟩

end Channel
