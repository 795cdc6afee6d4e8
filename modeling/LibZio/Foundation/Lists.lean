import Mathlib.Data.List.Count
import Mathlib.Data.List.Nodup

/-! # Lists without repetition

Where an element of a list without repetition stands: what is in front of it, and what a traversal
that looks for it has passed. -/

namespace LibZio

universe u

variable {α : Type u} {l m : List α} {a b c : α}

/-- What is in front of an element is something else. -/
theorem notMem_front (h : (l ++ a :: m).Nodup) : a ∉ l :=
  fun hm => (List.disjoint_of_nodup_append h) hm (List.mem_cons_self ..)

variable [DecidableEq α]

/-- What is left when an element is taken out. -/
theorem erase_middle (h : (l ++ a :: m).Nodup) : (l ++ a :: m).erase a = l ++ m := by
  rw [List.erase_append_right _ (notMem_front h), List.erase_cons_head]

/-- What has been passed before an element. -/
theorem takeWhile_ne_append (h : a ∉ l) : (l ++ a :: m).takeWhile (· ≠ a) = l := by
  induction l with
  | nil => simp
  | cons b l ih =>
      rw [List.mem_cons, not_or] at h
      rw [List.cons_append, List.takeWhile_cons, if_pos (by simpa using Ne.symm h.1), ih h.2]

/-- What has been passed before an element passed has been passed. -/
theorem mem_of_mem_takeWhile (h : (l ++ a :: m).Nodup) (hc : c ∈ l)
    (hb : b ∈ (l ++ a :: m).takeWhile (· ≠ c)) : b ∈ l := by
  obtain ⟨l₁, l₂, rfl⟩ := List.append_of_mem hc
  rw [List.append_assoc, List.cons_append] at h hb
  rw [takeWhile_ne_append (notMem_front h)] at hb
  exact List.mem_append_left _ hb

/-- Changing a predicate at one element changes the count by one. -/
theorem countP_flip {f g : α → Bool} (hl : l.Nodup) (ha : a ∈ l) (hf : f a = true)
    (hg : g a = false) (hfg : ∀ b ∈ l, b ≠ a → f b = g b) : l.countP f = l.countP g + 1 := by
  have hrest : (l.erase a).countP f = (l.erase a).countP g := by
    refine List.countP_congr fun b hb => ?_
    have hb' := (hl.mem_erase_iff).mp hb
    rw [hfg b hb'.2 hb'.1]
  have hf' : l.countP f = (l.erase a).countP f + 1 := by
    rw [(List.perm_cons_erase ha).countP_eq, List.countP_cons, hf]
    rfl
  have hg' : l.countP g = (l.erase a).countP g := by
    rw [(List.perm_cons_erase ha).countP_eq, List.countP_cons, hg]
    rfl
  omega

end LibZio
