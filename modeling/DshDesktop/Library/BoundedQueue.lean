import Mathlib.Data.List.Basic

/-!
# Bounded first-in first-out queues

The queue of a bounded channel with non-blocking sends: an item that does not fit is
handed back and the queue stays as it is.
-/

structure BoundedQueue (α : Type*) (capacity : ℕ) where
  items : List α
  fits : items.length ≤ capacity

namespace BoundedQueue
variable {α : Type*} {capacity : ℕ} {q : BoundedQueue α capacity}

def empty : BoundedQueue α capacity := ⟨[], Nat.zero_le capacity⟩

theorem snoc_fits {items : List α} (h : items.length < capacity) (x : α) :
    (items ++ [x]).length ≤ capacity := by
  rw [List.length_append]
  exact h

theorem tail_fits (q : BoundedQueue α capacity) : q.items.tail.length ≤ capacity := by
  have htl : q.items.tail.length ≤ q.items.length := by
    rw [List.length_tail]
    exact Nat.sub_le _ _
  exact Nat.le_trans htl q.fits

def trySend (q : BoundedQueue α capacity) (x : α) : Bool × BoundedQueue α capacity :=
  if h : q.items.length < capacity then (true, ⟨q.items ++ [x], snoc_fits h x⟩) else (false, q)

def recv (q : BoundedQueue α capacity) : Option α × BoundedQueue α capacity :=
  (q.items.head?, ⟨q.items.tail, q.tail_fits⟩)

theorem trySend_room (h : q.items.length < capacity) (x : α) :
    (q.trySend x).1 ∧ (q.trySend x).2.items = q.items ++ [x] := by
  rw [trySend, dif_pos h]
  exact ⟨rfl, rfl⟩

theorem trySend_full (h : ¬ q.items.length < capacity) (x : α) : q.trySend x = (false, q) := by
  rw [trySend, dif_neg h]

end BoundedQueue
