import Mathlib.Data.List.Basic
import Mathlib.Tactic.Common

/-! # First-in first-out channels

A `Fifo` is the whole history of a channel: everything ever pushed, everything ever popped, and
what is still pending. The conservation law is a field, so a history in which an item is lost,
repeated or overtaken cannot be built. -/

namespace LibZio

variable {α : Type*}

/-- The history of a channel: `popped ++ pending` is exactly what was pushed, in order. -/
structure Fifo (α : Type*) where
  /-- Everything pushed so far, oldest first. -/
  pushed : List α
  /-- Everything popped so far, oldest first. -/
  popped : List α
  /-- What has been pushed and not yet popped. -/
  pending : List α
  /-- Nothing is lost, repeated or reordered. -/
  conserved : popped ++ pending = pushed

namespace Fifo

/-- The channel nothing has passed through. -/
def empty : Fifo α := ⟨[], [], [], rfl⟩

/-- Push `xs` at the back. -/
def push (f : Fifo α) (xs : List α) : Fifo α where
  pushed := f.pushed ++ xs
  popped := f.popped
  pending := f.pending ++ xs
  conserved := by rw [← List.append_assoc, f.conserved]

/-- Pop the front `n` items, or all of them when fewer are pending. -/
def pop (f : Fifo α) (n : ℕ) : Fifo α where
  pushed := f.pushed
  popped := f.popped ++ f.pending.take n
  pending := f.pending.drop n
  conserved := by rw [List.append_assoc, List.take_append_drop, f.conserved]

@[simp] theorem push_pushed (f : Fifo α) (xs : List α) :
    (f.push xs).pushed = f.pushed ++ xs := rfl

@[simp] theorem push_popped (f : Fifo α) (xs : List α) : (f.push xs).popped = f.popped := rfl

@[simp] theorem push_pending (f : Fifo α) (xs : List α) :
    (f.push xs).pending = f.pending ++ xs := rfl

@[simp] theorem pop_pushed (f : Fifo α) (n : ℕ) : (f.pop n).pushed = f.pushed := rfl

@[simp] theorem pop_popped (f : Fifo α) (n : ℕ) :
    (f.pop n).popped = f.popped ++ f.pending.take n := rfl

@[simp] theorem pop_pending (f : Fifo α) (n : ℕ) : (f.pop n).pending = f.pending.drop n := rfl

/-- What is pending is what was pushed less what was popped. -/
theorem pending_eq_drop (f : Fifo α) : f.pending = f.pushed.drop f.popped.length := by
  rw [← f.conserved, List.drop_left' rfl]

end Fifo

end LibZio
