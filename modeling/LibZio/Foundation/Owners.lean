import LibZio.Foundation.Ledger
import Mathlib.Logic.Function.Basic

/-! # Ledgers with owners

The resources of a ledger are kept by owners, each of which has at most one. A resource is
*accounted for* if, whenever it was acquired, it was released once, or has an owner that will.
Releases before the first acquisition do not count: they are of a resource that came from
elsewhere. -/

namespace LibZio

universe u v w

namespace Ledger

variable {ε : Type v} {α : Type u} [DecidableEq α] (entry : ε → Entry α)

/-- How often `a` was acquired. -/
def obtained (a : α) (es : List ε) : ℕ := (acquired entry es).count a

/-- How often `a` was released once it had been acquired. -/
def returned (a : α) : List ε → ℕ
  | [] => 0
  | e :: es =>
      match entry e with
      | .release b => (if b = a ∧ a ∈ acquired entry es then 1 else 0) + returned a es
      | _ => returned a es

variable {entry} {e : ε} {es : List ε} {a b : α}

theorem obtained_acquire (he : entry e = .acquire b) :
    obtained entry a (e :: es) = obtained entry a es + if b = a then 1 else 0 := by
  rw [obtained, acquired, he]
  by_cases h : b = a
  · subst h
    rw [if_pos rfl, List.count_cons_self]
    rfl
  · rw [if_neg h, List.count_cons_of_ne h]
    rfl

theorem obtained_release (he : entry e = .release b) :
    obtained entry a (e :: es) = obtained entry a es := by
  rw [obtained, acquired, he]
  rfl

theorem obtained_neither (he : entry e = .neither) :
    obtained entry a (e :: es) = obtained entry a es := by
  rw [obtained, acquired, he]
  rfl

theorem returned_acquire (he : entry e = .acquire b) :
    returned entry a (e :: es) = returned entry a es := by rw [returned, he]

theorem returned_release (he : entry e = .release b) :
    returned entry a (e :: es)
      = (if b = a ∧ a ∈ acquired entry es then 1 else 0) + returned entry a es := by
        rw [returned, he]

theorem returned_neither (he : entry e = .neither) :
    returned entry a (e :: es) = returned entry a es := by rw [returned, he]

/-- What is held was acquired. -/
theorem acquired_of_held (h : a ∈ held entry es) : a ∈ acquired entry es := by
  induction es with
  | nil => exact h
  | cons e es ih =>
      unfold held at h
      unfold acquired
      cases he : entry e with
      | neither => rw [he] at h; exact ih h
      | release b => rw [he] at h; exact ih (List.mem_of_mem_erase h)
      | acquire b =>
          rw [he] at h
          rcases List.mem_cons.mp h with rfl | h
          · exact List.mem_cons_self
          · exact List.mem_cons_of_mem _ (ih h)

end Ledger

open Ledger

variable {ι : Type w} {ε : Type v} {α : Type u} [DecidableEq α] {entry : ε → Entry α}
  {f : ι → Option α} {es : List ε}

/-- Each resource was released as often as it was acquired, but for one that has an owner. -/
structure Accounted (entry : ε → Entry α) (f : ι → Option α) (es : List ε) : Prop where
  owned : ∀ i a, f i = some a → obtained entry a es = returned entry a es + 1
  settled : ∀ a, (∀ i, f i ≠ some a) → obtained entry a es = returned entry a es

/-- An event that touches no resource changes no account. -/
theorem accounted_neither {e : ε} (he : entry e = .neither) :
    Accounted entry f (e :: es) ↔ Accounted entry f es := by
  have hobtained (a : α) : obtained entry a (e :: es) = obtained entry a es := obtained_neither he
  have hreturned (a : α) : returned entry a (e :: es) = returned entry a es := returned_neither he
  constructor
  · intro h
    refine ⟨fun i a ha => ?_, fun a ha => ?_⟩
    · rw [← hobtained, ← hreturned, h.owned i a ha]
    · rw [← hobtained, ← hreturned, h.settled a ha]
  · intro h
    refine ⟨fun i a ha => ?_, fun a ha => ?_⟩
    · rw [hobtained, hreturned, h.owned i a ha]
    · rw [hobtained, hreturned, h.settled a ha]

/-- Resources that are accounted for and held, with no two owners for one. -/
structure Owned (entry : ε → Entry α) (f : ι → Option α) (es : List ε) : Prop extends
    Accounted entry f es where
  held : ∀ i a, f i = some a → a ∈ Ledger.held entry es
  apart : ∀ i j a, f i = some a → f j = some a → i = j

namespace Owned

variable {e : ε} {a : α} {i : ι}

/-- Before the first event. -/
theorem initial (h : ∀ i, f i = none) : Owned entry f [] where
  owned i a ha := by rw [h i] at ha; cases ha
  settled a _ := rfl
  held i a ha := by rw [h i] at ha; cases ha
  apart i j a ha := by rw [h i] at ha; cases ha

/-- An event that touches no resource. -/
theorem neither (h : Owned entry f es) (he : entry e = .neither) : Owned entry f (e :: es) where
  toAccounted := (accounted_neither he).mpr h.toAccounted
  held i a ha := by rw [Ledger.held, he]; exact h.held i a ha
  apart := h.apart

/-- A resource without an owner that is released and was never acquired is none of the ledger's. -/
theorem stranger (h : Owned entry f es) (he : entry e = .release a) (hno : a ∉ acquired entry es) :
    Owned entry f (e :: es) := by
  have hreturned (b : α) : returned entry b (e :: es) = returned entry b es := by
    rw [returned_release he, if_neg (by rintro ⟨rfl, hmem⟩; exact hno hmem), Nat.zero_add]
  refine ⟨⟨fun i b hb => ?_, fun b hb => ?_⟩, fun i b hb => ?_, h.apart⟩
  · rw [obtained_release he, hreturned, h.owned i b hb]
  · rw [obtained_release he, hreturned, h.settled b hb]
  · rw [held_release entry he]
    refine (List.mem_erase_of_ne ?_).mpr (h.held i b hb)
    rintro rfl
    exact hno (acquired_of_held (h.held i b hb))

/-- A resource that was acquired cannot be released behind its owner's back, nor once more. -/
theorem not_accounted_release (h : Owned entry f es) (he : entry e = .release a)
    (hmem : a ∈ acquired entry es) : ¬Accounted entry f (e :: es) := by
  intro hacc
  have hreturned : returned entry a (e :: es) = 1 + returned entry a es := by
    rw [returned_release he, if_pos ⟨rfl, hmem⟩]
  by_cases howner : ∃ i, f i = some a
  · obtain ⟨i, hi⟩ := howner
    have hafter := hacc.owned i a hi
    have hbefore := h.owned i a hi
    rw [obtained_release he, hreturned] at hafter
    omega
  · have hnone := not_exists.mp howner
    have hafter := hacc.settled a hnone
    have hbefore := h.settled a hnone
    rw [obtained_release he, hreturned] at hafter
    omega

variable [DecidableEq ι]

/-- An owner acquires a resource that is not held. -/
theorem acquire (h : Owned entry f es) (he : entry e = .acquire a)
    (fresh : a ∉ Ledger.held entry es)
    (hi : f i = none) : Owned entry (Function.update f i (some a)) (e :: es) := by
  have hnone (j : ι) : f j ≠ some a := fun hj => fresh (h.held j a hj)
  have old {j : ι} {b : α} (hj : Function.update f i (some a) j = some b) :
      j = i ∧ a = b ∨ j ≠ i ∧ f j = some b := by
    by_cases hji : j = i
    · rw [hji, Function.update_self] at hj
      exact .inl ⟨hji, Option.some.inj hj⟩
    · rw [Function.update_of_ne hji] at hj
      exact .inr ⟨hji, hj⟩
  refine ⟨⟨fun j b hb => ?_, fun b hb => ?_⟩, fun j b hb => ?_, fun j k b hj hk => ?_⟩
  · rw [obtained_acquire he, returned_acquire he]
    obtain ⟨-, rfl⟩ | ⟨-, hb⟩ := old hb
    · rw [if_pos rfl, h.settled a hnone]
    · rw [if_neg (by rintro rfl; exact hnone j hb), h.owned j b hb]
  · have hab : a ≠ b := by
      rintro rfl
      exact hb i (Function.update_self ..)
    rw [obtained_acquire he, returned_acquire he, if_neg hab]
    refine h.settled b fun j hj => hb j ?_
    rw [Function.update_of_ne (by rintro rfl; rw [hi] at hj; cases hj), hj]
  · rw [held_acquire entry he]
    obtain ⟨-, rfl⟩ | ⟨-, hb⟩ := old hb
    · exact List.mem_cons_self
    · exact List.mem_cons_of_mem _ (h.held j b hb)
  · obtain ⟨rfl, rfl⟩ | ⟨-, hj'⟩ := old hj
    · obtain ⟨rfl, -⟩ | ⟨-, hk'⟩ := old hk
      · rfl
      · exact absurd hk' (hnone k)
    · obtain ⟨rfl, rfl⟩ | ⟨-, hk'⟩ := old hk
      · exact absurd hj' (hnone j)
      · exact h.apart j k b hj' hk'

/-- An owner releases its resource. -/
theorem release (h : Owned entry f es) (he : entry e = .release a) (hi : f i = some a) :
    Owned entry (Function.update f i none) (e :: es) := by
  have hmem := acquired_of_held (h.held i a hi)
  have old {j : ι} {b : α} (hj : Function.update f i none j = some b) : f j = some b ∧ b ≠ a := by
    by_cases hji : j = i
    · rw [hji, Function.update_self] at hj
      cases hj
    · rw [Function.update_of_ne hji] at hj
      exact ⟨hj, by rintro rfl; exact hji (h.apart j i b hj hi)⟩
  refine ⟨⟨fun j b hb => ?_, fun b hb => ?_⟩, fun j b hb => ?_, fun j k b hj hk => ?_⟩
  · obtain ⟨hj, hne⟩ := old hb
    rw [obtained_release he, returned_release he, if_neg fun hab => hne hab.1.symm, h.owned j b hj]
    omega
  · rw [obtained_release he, returned_release he]
    by_cases hab : a = b
    · subst hab
      rw [if_pos ⟨rfl, hmem⟩, h.owned i a hi]
      omega
    · rw [if_neg fun hba => hab hba.1, Nat.zero_add]
      refine h.settled b fun j hj => hb j ?_
      rw [Function.update_of_ne (by rintro rfl; rw [hi] at hj; exact hab (Option.some.inj hj)), hj]
  · obtain ⟨hj, hne⟩ := old hb
    exact mem_held_of_ne entry he hne (h.held j b hj)
  · exact h.apart j k b (old hj).1 (old hk).1

/-- An owner cannot give up its resource without a release. -/
theorem not_accounted_lost (h : Owned entry f es) (hi : f i = some a) :
    ¬Accounted entry (Function.update f i none) es := by
  intro hacc
  have hbefore := h.owned i a hi
  have hafter := hacc.settled a fun j hj => by
    by_cases hji : j = i
    · rw [hji, Function.update_self] at hj
      cases hj
    · rw [Function.update_of_ne hji] at hj
      exact hji (h.apart j i a hj hi)
  omega

end Owned

end LibZio
