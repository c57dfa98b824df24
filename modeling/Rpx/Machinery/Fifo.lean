import Mathlib.Tactic

/-!
# Machinery/Fifo — a queue with its history

The ideal byte queue, over any type of elements: what was pushed, what was popped, what is held.
The balance `popped ++ held = pushed` is a field, so a queue that lost, duplicated or reordered an
element cannot be built; an implementation is right when its steps are the steps of this one.
-/

namespace Machinery

/-- **A first-in first-out queue with its history.** -/
structure Fifo (α : Type*) where
  /-- Everything pushed so far, in order. -/
  pushed : List α
  /-- Everything popped so far, in order. -/
  popped : List α
  /-- What is still inside. -/
  held : List α
  /-- Nothing is lost, duplicated or reordered. -/
  balance : popped ++ held = pushed

namespace Fifo

variable {α : Type*}

/-- The queue nothing has gone through. -/
def empty : Fifo α := ⟨[], [], [], rfl⟩

/-- Elements enter at the back. -/
def push (q : Fifo α) (xs : List α) : Fifo α where
  pushed := q.pushed ++ xs
  popped := q.popped
  held := q.held ++ xs
  balance := by rw [← List.append_assoc, q.balance]

/-- Elements leave at the front: `n` of them, or all when fewer are held. -/
def pop (q : Fifo α) (n : ℕ) : Fifo α where
  pushed := q.pushed
  popped := q.popped ++ q.held.take n
  held := q.held.drop n
  balance := by rw [List.append_assoc, List.take_append_drop, q.balance]

@[simp] theorem held_push (q : Fifo α) (xs : List α) : (q.push xs).held = q.held ++ xs := rfl

@[simp] theorem pushed_push (q : Fifo α) (xs : List α) :
    (q.push xs).pushed = q.pushed ++ xs := rfl

@[simp] theorem popped_push (q : Fifo α) (xs : List α) : (q.push xs).popped = q.popped := rfl

@[simp] theorem held_pop (q : Fifo α) (n : ℕ) : (q.pop n).held = q.held.drop n := rfl

@[simp] theorem pushed_pop (q : Fifo α) (n : ℕ) : (q.pop n).pushed = q.pushed := rfl

@[simp] theorem popped_pop (q : Fifo α) (n : ℕ) :
    (q.pop n).popped = q.popped ++ q.held.take n := rfl

/-- **What has left the queue is a prefix of what entered it.** -/
theorem popped_prefix (q : Fifo α) : q.popped <+: q.pushed := ⟨q.held, q.balance⟩

end Fifo

end Machinery
