import Mathlib.Data.Finset.Card
import Mathlib.Data.List.Count
import Mathlib.Data.List.Nodup
import Mathlib.Data.Int.Basic

/-! # Traversals with a countdown

A traversal that counts down once for each busy element and stops where the counter reaches zero. It
visits a prefix of the list (`untilDone_prefix`), and leaves out no busy element if the counter
starts at their number or above (`filter_untilDone`). -/

namespace LibZio

universe u

variable {α : Type u} {busy : α → Bool} {l : List α} {n : ℤ}

/-- The elements that the traversal visits, where `n` is left to count down. -/
def untilDone (busy : α → Bool) : List α → ℤ → List α
  | [], _ => []
  | a :: l, n =>
      if busy a then (if n - 1 = 0 then [a] else a :: untilDone busy l (n - 1))
      else a :: untilDone busy l n

/-- A busy element at which the counter reaches zero is the last one visited. -/
theorem untilDone_last {a : α} (h : busy a = true) (hn : n - 1 = 0) :
    untilDone busy (a :: l) n = [a] := by
  rw [untilDone, if_pos h, if_pos hn]

/-- Behind an element at which the counter does not reach zero the traversal goes on. -/
theorem untilDone_next {a : α} (h : ¬(busy a = true ∧ n - 1 = 0)) :
    untilDone busy (a :: l) n = a :: untilDone busy l (if busy a then n - 1 else n) := by
  rw [untilDone]
  by_cases hb : busy a = true
  · rw [if_pos hb, if_pos hb, if_neg fun hn => h ⟨hb, hn⟩]
  · rw [if_neg hb, if_neg hb]

/-- The traversal visits the elements in order, from the first on. -/
theorem untilDone_prefix (busy : α → Bool) (l : List α) (n : ℤ) : untilDone busy l n <+: l := by
  induction l generalizing n with
  | nil => exact List.prefix_rfl
  | cons a l ih =>
      by_cases h : busy a = true ∧ n - 1 = 0
      · rw [untilDone_last h.1 h.2]
        exact ⟨l, rfl⟩
      · rw [untilDone_next h]
        exact (List.prefix_cons_inj a).mpr (ih _)

/-- **No busy element is left out**, if the counter starts at their number or above. -/
theorem filter_untilDone (h : (l.countP busy : ℤ) ≤ n) :
    (untilDone busy l n).filter busy = l.filter busy := by
  induction l generalizing n with
  | nil => rfl
  | cons a l ih =>
      by_cases hb : busy a = true
      · rw [List.countP_cons_of_pos hb, Int.natCast_succ] at h
        by_cases hn : n - 1 = 0
        · -- the counter bounds the number of busy elements behind `a`, so there are none
          have none : l.filter busy = [] := by
            rw [← List.length_eq_zero_iff, ← List.countP_eq_length_filter]
            omega
          rw [untilDone_last hb hn, List.filter_cons_of_pos hb, List.filter_cons_of_pos hb, none]
          rfl
        · rw [untilDone_next fun hc => hn hc.2, if_pos hb, List.filter_cons_of_pos hb,
            List.filter_cons_of_pos hb, ih (by omega)]
      · rw [List.countP_cons_of_neg hb] at h
        rw [untilDone_next fun hc => hb hc.1, if_neg hb, List.filter_cons_of_neg hb,
          List.filter_cons_of_neg hb, ih h]

/-- A busy element is visited. -/
theorem mem_untilDone {a : α} (h : (l.countP busy : ℤ) ≤ n) (ha : a ∈ l) (hb : busy a = true) :
    a ∈ untilDone busy l n := by
  have inside : a ∈ (untilDone busy l n).filter busy := by
    rw [filter_untilDone h]
    exact List.mem_filter.mpr ⟨ha, hb⟩
  exact List.mem_of_mem_filter inside

/-- Elements with pairwise different keys hit at most as many keys as there are. -/
theorem countP_mem_le_card {κ : Type u} [DecidableEq κ] (key : α → κ) (keys : Finset κ)
    (nodup : l.Nodup) (inj : ∀ a ∈ l, ∀ b ∈ l, key a ∈ keys → key a = key b → a = b) :
    l.countP (fun a => decide (key a ∈ keys)) ≤ keys.card := by
  have nodup' : ((l.filter fun a => decide (key a ∈ keys)).map key).Nodup := by
    refine (nodup.filter _).map_on fun a ha b hb same => ?_
    obtain ⟨ha, hk⟩ := List.mem_filter.mp ha
    exact inj a ha b (List.mem_of_mem_filter hb) (of_decide_eq_true hk) same
  rw [List.countP_eq_length_filter, ← List.length_map key, ← List.toFinset_card_of_nodup nodup']
  refine Finset.card_le_card fun k hk => ?_
  obtain ⟨a, ha, rfl⟩ := List.mem_map.mp (List.mem_toFinset.mp hk)
  exact of_decide_eq_true (List.mem_filter.mp ha).2

end LibZio
