import Mathlib.Data.Int.Basic
import Mathlib.Data.List.Infix
import Mathlib.Data.List.Induction
import Mathlib.Tactic.Common

/-! # Moving cells a piece at a time

A caller that wants `len` cells asks for them in pieces and stores each piece behind the last; a
caller that has cells to send offers what is left of them until all are taken. The calls made are
kept in a list, oldest first. `Gathered` is the invariant of the first caller and `Handed` that of
the second: each call keeps it, and it holds what the caller needs to know when it stops, whatever
made it stop. -/

namespace LibZio

variable {α : Type*}

/-- A place in a list that has grown by one: the new end, or a place there was before. -/
theorem place_snoc {l before after : List α} {d c : α} (h : l ++ [d] = before ++ c :: after) :
    (l = before ∧ d = c) ∨ ∃ after', l = before ++ c :: after' := by
  induction after using List.reverseRecOn with
  | nil =>
      obtain ⟨hl, hd⟩ := List.append_inj' h rfl
      exact .inl ⟨hl, List.singleton_inj.mp hd⟩
  | append_singleton after e _ =>
      rw [← List.cons_append, ← List.append_assoc] at h
      exact .inr ⟨after, (List.append_inj' h rfl).1⟩

/-! ## Taking -/

/-- A call that asks for some cells and gets them, or fails with `none`. -/
structure ReadCall (α : Type*) where
  asked : ℕ
  got : Option (List α)
  deriving DecidableEq

/-- The call gets at most what it asks for. -/
def ReadCall.Fits (c : ReadCall α) : Prop := ∀ cells, c.got = some cells → cells.length ≤ c.asked

/-- The cells the calls delivered, in order. -/
def delivered (calls : List (ReadCall α)) : List α := calls.flatMap fun c => c.got.getD []

@[simp] theorem delivered_nil : delivered ([] : List (ReadCall α)) = [] := rfl

@[simp] theorem delivered_append (calls calls' : List (ReadCall α)) :
    delivered (calls ++ calls') = delivered calls ++ delivered calls' := List.flatMap_append ..

@[simp] theorem delivered_singleton (n : ℕ) (got : Option (List α)) :
    delivered [⟨n, got⟩] = got.getD [] := by simp [delivered]

/-- The calls have stored what they delivered at the front of the memory `mem`, which was `old`
before them, and none was given room beyond the first `len` cells. -/
structure Gathered (len : ℕ) (old : ℕ → Option α) (calls : List (ReadCall α)) (mem : ℕ → Option α) :
    Prop where
  le : (delivered calls).length ≤ len
  room : ∀ before c after, calls = before ++ c :: after → (delivered before).length + c.asked ≤ len
  front : ∀ j < (delivered calls).length, mem j = (delivered calls)[j]?
  beyond : ∀ j, (delivered calls).length ≤ j → mem j = old j

namespace Gathered

variable {len n : ℕ} {old mem mem' : ℕ → Option α} {calls : List (ReadCall α)}

/-- Before the first call nothing is stored. -/
theorem start (len : ℕ) (old : ℕ → Option α) : Gathered len old [] old where
  le := Nat.zero_le _
  room before c after h := by simp at h
  front j h := absurd h (Nat.not_lt_zero j)
  beyond _ _ := rfl

/-- A call given no more room than is left. -/
theorem room_snoc (h : Gathered len old calls mem) (hn : (delivered calls).length + n ≤ len)
    (got : Option (List α)) (before : List (ReadCall α)) (c : ReadCall α)
    (after : List (ReadCall α)) (he : calls ++ [⟨n, got⟩] = before ++ c :: after) :
    (delivered before).length + c.asked ≤ len := by
  obtain ⟨rfl, rfl⟩ | ⟨after', he'⟩ := place_snoc he
  · exact hn
  · exact h.room before c after' he'

/-- **A call that delivers cells**, which are stored behind those gathered. -/
theorem got (h : Gathered len old calls mem) {cells : List α}
    (hn : (delivered calls).length + n ≤ len) (hcells : cells.length ≤ n)
    (hbefore : ∀ j < (delivered calls).length, mem' j = mem j)
    (hstored : ∀ j < cells.length, mem' ((delivered calls).length + j) = cells[j]?)
    (hbehind : ∀ j, (delivered calls).length + cells.length ≤ j → mem' j = mem j) :
    Gathered len old (calls ++ [⟨n, some cells⟩]) mem' := by
  have hdelivered : delivered (calls ++ [⟨n, some cells⟩]) = delivered calls ++ cells := by simp
  refine ⟨?_, h.room_snoc hn _, fun j hj => ?_, fun j hj => ?_⟩
  · rw [hdelivered, List.length_append]; omega
  · rw [hdelivered, List.length_append] at hj
    rw [hdelivered]
    by_cases hlt : j < (delivered calls).length
    · rw [hbefore j hlt, h.front j hlt, List.getElem?_append_left hlt]
    · obtain ⟨i, rfl⟩ := Nat.exists_eq_add_of_le (not_lt.mp hlt)
      rw [hstored i (by omega), List.getElem?_append_right (by omega), Nat.add_sub_cancel_left]
  · rw [hdelivered, List.length_append] at hj
    rw [hbehind j hj, h.beyond j (by omega)]

/-- A call that delivers nothing leaves the memory as it is. -/
theorem nothing (h : Gathered len old calls mem) (hn : (delivered calls).length + n ≤ len)
    {got : Option (List α)} (hgot : got.getD [] = []) : Gathered len old
    (calls ++ [⟨n, got⟩]) mem := by
  have hdelivered : delivered (calls ++ [⟨n, got⟩]) = delivered calls := by simp [hgot]
  refine ⟨?_, h.room_snoc hn _, ?_, ?_⟩
  · rw [hdelivered]; exact h.le
  · rw [hdelivered]; exact h.front
  · rw [hdelivered]; exact h.beyond

end Gathered

/-- What a read of at most `len` cells that returned `ret` owes its caller, by the calls it made. -/
structure Lossless (len : ℕ) (calls : List (ReadCall α)) (ret : ℤ) (old mem : ℕ → Option α) :
    Prop where
  /-- No call was given room beyond the first `len` cells. -/
  room : ∀ before c after, calls = before ++ c :: after → (delivered before).length + c.asked ≤ len
  /-- Nothing was stored there. -/
  beyond : ∀ j, len ≤ j → mem j = old j
  /-- A count is that of the cells delivered, which are at the front. -/
  counted : ∀ n : ℕ, ret = n →
    (delivered calls).length = n ∧ n ≤ len ∧ ∀ j < n, mem j = (delivered calls)[j]?
  /-- Nothing was taken by a read that failed. -/
  failed : ret = -1 → delivered calls = []
  range : ret = -1 ∨ 0 ≤ ret

namespace Gathered

variable {len : ℕ} {old mem : ℕ → Option α} {calls : List (ReadCall α)}

/-- A read that returns the number of cells gathered loses nothing. -/
theorem lossless (h : Gathered len old calls mem) :
    Lossless len calls (delivered calls).length old mem where
  room := h.room
  beyond j hj := h.beyond j (h.le.trans hj)
  counted n hn := by
    obtain rfl : (delivered calls).length = n := by exact_mod_cast hn
    exact ⟨rfl, h.le, h.front⟩
  failed hr := by omega
  range := .inr (by omega)

/-- Nor does a read that fails having gathered nothing. -/
theorem lossless_failed (h : Gathered len old calls mem) (hnone : delivered calls = []) :
    Lossless len calls (-1) old mem where
  room := h.room
  beyond j hj := h.beyond j (h.le.trans hj)
  counted n hn := by omega
  failed _ := hnone
  range := .inl rfl

end Gathered

/-! ## Giving -/

/-- A call that offers some cells and returns how many of them were taken, or that none were. -/
structure SendCall (α : Type*) where
  offered : List α
  ret : ℤ
  deriving DecidableEq

/-- The call takes at most what it is offered. -/
def SendCall.Fits (c : SendCall α) : Prop := c.ret ≤ c.offered.length

/-- The cells the calls took, in order. -/
def accepted (calls : List (SendCall α)) : List α :=
  calls.flatMap fun c => c.offered.take c.ret.toNat

@[simp] theorem accepted_nil : accepted ([] : List (SendCall α)) = [] := rfl

@[simp] theorem accepted_snoc (calls : List (SendCall α)) (c : SendCall α) :
    accepted (calls ++ [c]) = accepted calls ++ c.offered.take c.ret.toNat := by simp [accepted]

/-- Each call was offered exactly the cells that the calls before it had not taken, and took
some. -/
structure Handed (cells : List α) (calls : List (SendCall α)) : Prop where
  taken : accepted calls <+: cells
  offers : ∀ before c after, calls = before ++ c :: after →
    c.offered = cells.drop (accepted before).length

namespace Handed

variable {cells : List α} {calls : List (SendCall α)}

/-- Before the first call nothing is taken. -/
theorem start (cells : List α) : Handed cells [] where
  taken := List.nil_prefix
  offers before c after h := by simp at h

/-- **A call that is offered what is left** takes the next cells. -/
theorem offer (h : Handed cells calls) (ret : ℤ) :
    Handed cells (calls ++ [⟨cells.drop (accepted calls).length, ret⟩]) := by
  refine ⟨?_, fun before c after he => ?_⟩
  · obtain ⟨rest, hrest⟩ := h.taken
    have hdrop : cells.drop (accepted calls).length = rest := by
      rw [← hrest, List.drop_left]
    rw [accepted_snoc, hdrop, ← hrest]
    exact (List.prefix_append_right_inj _).mpr (List.take_prefix _ _)
  · obtain ⟨rfl, rfl⟩ | ⟨after', he'⟩ := place_snoc he
    · rfl
    · exact h.offers before c after' he'

/-- The calls took no more than there is. -/
theorem length_le (h : Handed cells calls) : (accepted calls).length ≤ cells.length :=
  h.taken.length_le

/-- All cells are taken once as many are taken as there are. -/
theorem accepted_eq_iff (h : Handed cells calls) :
    accepted calls = cells ↔ (accepted calls).length = cells.length :=
  ⟨congrArg List.length, h.taken.eq_of_length⟩

end Handed

/-- What a write of all `cells` that returned `ret` owes its caller, by the calls it made. -/
structure AllOrError (cells : List α) (calls : List (SendCall α)) (ret : ℤ) : Prop where
  /-- What was taken is the front of what there is. -/
  taken : accepted calls <+: cells
  /-- A cell is not offered again once it was taken. -/
  offers : ∀ before c after, calls = before ++ c :: after →
    c.offered = cells.drop (accepted before).length
  /-- The full count is returned exactly when all was taken. -/
  all : ret = cells.length ↔ accepted calls = cells
  /-- A failure is returned exactly when some call took nothing. -/
  error : ret = -1 ↔ ∃ c ∈ calls, c.ret ≤ 0

namespace Handed

variable {cells : List α} {calls : List (SendCall α)}

/-- A write that has given everything away, each call taking some. -/
theorem allOrError (h : Handed cells calls) (htook : ∀ c ∈ calls, 0 < c.ret)
    (hall : (accepted calls).length = cells.length) : AllOrError cells calls cells.length where
  taken := h.taken
  offers := h.offers
  all := iff_of_true rfl (h.accepted_eq_iff.mpr hall)
  error := iff_of_false (by omega) fun ⟨c, hc, hret⟩ => by have := htook c hc; omega

/-- A write that stops at a call that took nothing, before everything was given away. -/
theorem allOrError_failed (h : Handed cells calls) (hmore : (accepted calls).length < cells.length)
    (hfailed : ∃ c ∈ calls, c.ret ≤ 0) : AllOrError cells calls (-1) where
  taken := h.taken
  offers := h.offers
  all := iff_of_false (by omega) fun he => by rw [he] at hmore; omega
  error := iff_of_true rfl hfailed

end Handed

end LibZio
