/-
A queue whose places are used once: at most `capacity` items arrive, and those that were taken off
the front still count as arrived until the queue is filled anew.
-/
import Mathlib.Tactic

namespace SfDaqBuffer

/-- The items that arrived, and how many of them were taken. -/
structure LinearQueue (α : Type*) (capacity : Nat) where
  arrived : List α
  taken : Nat
  taken_le : taken ≤ arrived.length
  arrived_le : arrived.length ≤ capacity

namespace LinearQueue

variable {α : Type*} {capacity : Nat}

/-! ## Operations -/

/-- The queue after `items` arrived at once. -/
def fill (items : List α) (fits : items.length ≤ capacity) : LinearQueue α capacity :=
  ⟨items, 0, Nat.zero_le _, fits⟩

def empty : LinearQueue α capacity := fill [] (Nat.zero_le _)

/-- The items that are in the queue, in the order of their arrival. -/
def content (q : LinearQueue α capacity) : List α := q.arrived.drop q.taken

theorem taken_le_concat (q : LinearQueue α capacity) (x : α) : q.taken ≤ (q.arrived ++ [x]).length := by
  rw [List.length_append]
  exact q.taken_le.trans (Nat.le_add_right ..)

theorem concat_le {q : LinearQueue α capacity} (h : q.arrived.length < capacity) (x : α) :
    (q.arrived ++ [x]).length ≤ capacity := by
  rw [List.length_append]
  exact h

/-- Fails when the places are used up. -/
def push (q : LinearQueue α capacity) (x : α) : Option (LinearQueue α capacity) :=
  if h : q.arrived.length < capacity then some ⟨q.arrived ++ [x], q.taken, q.taken_le_concat x, concat_le h x⟩
  else none

/-- The front item, if there is one. -/
def front (q : LinearQueue α capacity) : Option α := q.arrived[q.taken]?

/-- The front item and the queue behind it, if there is one. -/
def pop (q : LinearQueue α capacity) : Option (α × LinearQueue α capacity) :=
  if h : q.taken < q.arrived.length then some (q.arrived[q.taken], ⟨q.arrived, q.taken + 1, h, q.arrived_le⟩)
  else none

/-! ## The content -/

theorem front_eq_head (q : LinearQueue α capacity) : q.front = q.content.head? := by
  unfold front content
  rw [List.head?_drop]

theorem content_eq_nil (q : LinearQueue α capacity) : q.content = [] ↔ q.taken = q.arrived.length := by
  have hle := q.taken_le
  unfold content
  rw [List.drop_eq_nil_iff]
  omega

/-- A pushed item is the last one. -/
theorem push_eq_some {q q' : LinearQueue α capacity} {x : α} (h : q.push x = some q') :
    q'.arrived = q.arrived ++ [x] ∧ q'.taken = q.taken ∧ q'.content = q.content ++ [x] := by
  unfold push at h
  split at h
  · cases h
    exact ⟨rfl, rfl, List.drop_append_of_le_length q.taken_le⟩
  · cases h

theorem push_eq_none {q : LinearQueue α capacity} {x : α} : q.push x = none ↔ q.arrived.length = capacity := by
  have hle := q.arrived_le
  unfold push
  split
  · simp
    omega
  · simp
    omega

/-- A popped item was the first one. -/
theorem pop_eq_some {q q' : LinearQueue α capacity} {x : α} (h : q.pop = some (x, q')) :
    q'.arrived = q.arrived ∧ q'.taken = q.taken + 1 ∧ q.content = x :: q'.content := by
  unfold pop at h
  split at h
  · rename_i hlt
    cases h
    exact ⟨rfl, rfl, List.drop_eq_getElem_cons hlt⟩
  · cases h

theorem pop_eq_none {q : LinearQueue α capacity} : q.pop = none ↔ q.content = [] := by
  have hle := q.taken_le
  rw [content_eq_nil]
  unfold pop
  split
  · simp
    omega
  · simp
    omega

end LinearQueue

end SfDaqBuffer
