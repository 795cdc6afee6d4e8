import Mathlib.Data.List.Basic
import Mathlib.Tactic.Common

/-! # Slices of a block of memory

A block of memory is a list of cells. `slice m p n` reads the `n` cells from position `p`, and
`splice m p xs` overwrites the cells from position `p` with `xs`. `load` and `store` are the same
two accesses with the bounds check that an address calculation omits: an access that leaves the
block has no result. A copy inside one block is a `load` followed by a `store`, so the source is
read in full before any cell is written, and overlap is harmless. -/

namespace LibZio

variable {α : Type*}

/-- The `n` cells of `m` from position `p`. -/
def slice (m : List α) (p n : ℕ) : List α := (m.drop p).take n

/-- The block `m` with the cells from position `p` overwritten by `xs`. -/
def splice (m : List α) (p : ℕ) (xs : List α) : List α :=
  m.take p ++ xs ++ m.drop (p + xs.length)

/-- Read `n` cells from position `p`, when they all lie in the block. -/
def load (m : List α) (p n : ℕ) : Option (List α) :=
  if p + n ≤ m.length then some (slice m p n) else none

/-- Write `xs` from position `p`, when every cell written lies in the block. -/
def store (m : List α) (p : ℕ) (xs : List α) : Option (List α) :=
  if p + xs.length ≤ m.length then some (splice m p xs) else none

/-! ## Reading -/

/-- An in-bounds `load` succeeds with the slice. -/
theorem load_eq_some {m : List α} {p n : ℕ} (h : p + n ≤ m.length) :
    load m p n = some (slice m p n) := if_pos h

/-- A slice inside the block has the length asked for. -/
theorem length_slice {m : List α} {p n : ℕ} (h : p + n ≤ m.length) : (slice m p n).length = n := by
  simp only [slice, List.length_take, List.length_drop]
  omega

/-- What is read has the length asked for. -/
theorem length_of_load {m l : List α} {p n : ℕ} (h : load m p n = some l) : l.length = n := by
  rw [load] at h
  split at h
  · next hfit =>
    cases h
    exact length_slice hfit
  · cases h

@[simp] theorem slice_zero (m : List α) (p : ℕ) : slice m p 0 = [] := by simp [slice]

/-- Two adjacent slices join into one. -/
theorem slice_append_slice (m : List α) (p a b : ℕ) :
    slice m p a ++ slice m (p + a) b = slice m p (a + b) := by
  simp only [slice, List.take_add, List.drop_drop]

/-- The first cells of a slice are a shorter slice from the same position. -/
theorem take_slice (m : List α) (p n k : ℕ) : (slice m p n).take k = slice m p (min k n) := by
  simp only [slice, List.take_take]

/-- The cells of a slice after its first `k` are a slice from a later position. -/
theorem drop_slice (m : List α) (p n k : ℕ) : (slice m p n).drop k = slice m (p + k) (n - k) := by
  simp only [slice, List.drop_take, List.drop_drop]

/-- A slice only sees the front of the block that reaches its end. -/
theorem slice_take {m : List α} {p n k : ℕ} (h : p + n ≤ k) :
    slice (m.take k) p n = slice m p n := by
  simp only [slice, List.drop_take, List.take_take]
  congr 1
  omega

/-- A slice inside the front part of a block is not affected by what is behind it. -/
theorem slice_append_of_le {m m' : List α} {p n : ℕ} (h : p + n ≤ m.length) :
    slice (m ++ m') p n = slice m p n := by
  have hp : p ≤ m.length := by omega
  rw [slice, slice, List.drop_append_of_le_length hp, List.take_append_of_le_length]
  simp only [List.length_drop]
  omega

/-! ## Writing -/

/-- An in-bounds `store` succeeds with the overwritten block. -/
theorem store_eq_some {m : List α} {p : ℕ} {xs : List α} (h : p + xs.length ≤ m.length) :
    store m p xs = some (splice m p xs) := if_pos h

/-- Overwriting cells of the block keeps its length. -/
theorem length_splice {m : List α} {p : ℕ} {xs : List α} (h : p + xs.length ≤ m.length) :
    (splice m p xs).length = m.length := by
  simp only [splice, List.length_append, List.length_take, List.length_drop]
  omega

/-- The cells just written read back. -/
theorem slice_splice_self {m : List α} {p : ℕ} {xs : List α} (h : p ≤ m.length) :
    slice (splice m p xs) p xs.length = xs := by
  have hlen : (m.take p).length = p := by simp [h]
  rw [slice, splice, List.append_assoc, List.drop_left' hlen, List.take_left' rfl]

/-- Cells before the position written are unchanged. -/
theorem slice_splice_of_le {m : List α} {p q n : ℕ} {xs : List α} (hq : q + n ≤ p)
    (hp : p ≤ m.length) : slice (splice m p xs) q n = slice m q n := by
  have hlen : (m.take p).length = p := by simp [hp]
  rw [splice, List.append_assoc, slice_append_of_le (by omega), slice_take hq]

/-! ## A cell after a write -/

/-- A cell before the position written. -/
theorem getElem?_splice_before {m xs : List α} {p j : ℕ} (hj : j < p) (hp : p ≤ m.length) :
    (splice m p xs)[j]? = m[j]? := by
  rw [splice, List.append_assoc, List.getElem?_append_left (by simp; omega),
    List.getElem?_take_of_lt hj]

/-- A cell just written. -/
theorem getElem?_splice_stored {m xs : List α} {p j : ℕ} (hj : j < xs.length) (hp : p ≤ m.length) :
    (splice m p xs)[p + j]? = xs[j]? := by
  have hlen : (m.take p).length = p := by simp [hp]
  rw [splice, List.getElem?_append_left (by simp; omega),
    List.getElem?_append_right (by omega), hlen, Nat.add_sub_cancel_left]

/-- A cell behind those written. -/
theorem getElem?_splice_behind {m xs : List α} {p j : ℕ} (hj : p + xs.length ≤ j)
    (hp : p ≤ m.length) : (splice m p xs)[j]? = m[j]? := by
  have hlen : (m.take p ++ xs).length = p + xs.length := by simp [hp]
  rw [splice, List.getElem?_append_right (by omega), hlen, List.getElem?_drop,
    Nat.add_sub_cancel' hj]

end LibZio
