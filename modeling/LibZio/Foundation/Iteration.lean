import Mathlib.Data.Nat.Basic
import Mathlib.Tactic.Common

/-! # Loops

A loop runs its body until the body is done. A body that never returns leaves the loop without a
result, and so does one that always goes on. Two rules decide whether a loop has a result: an
invariant with a measure that each round lowers (`returns_of_measure`), and an invariant under which
the body always goes on (`not_returns`). What a loop has done when it returns follows from an
invariant alone (`iterate_post`). -/

namespace LibZio

universe u v

variable {σ : Type u} {ρ : Type v} {body : σ → Option (σ ⊕ ρ)} {s t : σ} {r : ρ}

/-- Run the body for at most `fuel` rounds. A round goes on with a state or ends with a result, and
is `none` where it never returns. -/
def iterate (body : σ → Option (σ ⊕ ρ)) : ℕ → σ → Option ρ
  | 0, _ => none
  | fuel + 1, s =>
      match body s with
      | none => none
      | some (.inl s') => iterate body fuel s'
      | some (.inr r) => some r

/-- The loop returns `r` after finitely many rounds. -/
def Returns (body : σ → Option (σ ⊕ ρ)) (s : σ) (r : ρ) : Prop :=
  ∃ fuel, iterate body fuel s = some r

/-- A round that goes on leaves the result to the rounds behind it. -/
theorem returns_again (h : body s = some (.inl t)) : Returns body s r ↔ Returns body t r := by
  constructor
  · rintro ⟨fuel, hr⟩
    cases fuel with
    | zero => cases hr
    | succ fuel =>
        rw [iterate, h] at hr
        exact ⟨fuel, hr⟩
  · rintro ⟨fuel, hr⟩
    refine ⟨fuel + 1, ?_⟩
    rw [iterate, h]
    exact hr

/-- A round that ends gives the result. -/
theorem returns_done (h : body s = some (.inr r)) : Returns body s r := by
  refine ⟨1, ?_⟩
  rw [iterate, h]

/-- **Loops that return.** Under an invariant each round ends with a result that is asked for, or
goes on under the invariant with less to do. -/
theorem returns_of_measure {I : σ → Prop} {post : ρ → Prop} (measure : σ → ℕ)
    (round : ∀ s, I s → (∃ r, body s = some (.inr r) ∧ post r) ∨
      ∃ s', body s = some (.inl s') ∧ I s' ∧ measure s' < measure s) (h : I s) :
    ∃ r, Returns body s r ∧ post r := by
  induction hn : measure s using Nat.strong_induction_on generalizing s with
  | _ n ih =>
      obtain ⟨r, hr, hpost⟩ | ⟨s', hs', hI', hlt⟩ := round s h
      · exact ⟨r, returns_done hr, hpost⟩
      · obtain ⟨r, hr, hpost⟩ := ih (measure s') (hn ▸ hlt) hI' rfl
        exact ⟨r, (returns_again hs').mpr hr, hpost⟩

/-- **Loops that do not return.** Under an invariant each round goes on under the invariant. -/
theorem not_returns {I : σ → Prop} (round : ∀ s, I s → ∃ s', body s = some (.inl s') ∧ I s')
    (h : I s) : ¬ Returns body s r := by
  rintro ⟨fuel, hr⟩
  induction fuel generalizing s with
  | zero => cases hr
  | succ fuel ih =>
      obtain ⟨s', hs', hI'⟩ := round s h
      rw [iterate, hs'] at hr
      exact ih hI' hr

/-- **What a loop has done when it returns.** Each round that goes on keeps the invariant, and one
that ends under it ends as is asked for. -/
theorem iterate_post (I : σ → Prop) (post : ρ → Prop)
    (again : ∀ s s', I s → body s = some (.inl s') → I s')
    (done : ∀ s r, I s → body s = some (.inr r) → post r) (h : I s) {fuel : ℕ}
    (hr : iterate body fuel s = some r) : post r := by
  induction fuel generalizing s with
  | zero => cases hr
  | succ fuel ih =>
      rw [iterate] at hr
      cases hs : body s with
      | none => rw [hs] at hr; cases hr
      | some next =>
          rw [hs] at hr
          cases next with
          | inl s' => exact ih (again s s' h hs) hr
          | inr r' =>
              cases hr
              exact done s r h hs

/-- A loop whose rounds are those of another, seen through `f` and `g`, has its result. -/
theorem iterate_map {σ' : Type u} {ρ' : Type v} {body' : σ' → Option (σ' ⊕ ρ')} {f : σ' → σ}
    {g : ρ' → ρ} (h : ∀ s, (body' s).map (Sum.map f g) = body (f s)) (fuel : ℕ) (s : σ') :
    (iterate body' fuel s).map g = iterate body fuel (f s) := by
  induction fuel generalizing s with
  | zero => rfl
  | succ fuel ih =>
      rw [iterate, iterate, ← h s]
      cases body' s with
      | none => rfl
      | some next =>
          cases next with
          | inl s' => exact ih s'
          | inr r => rfl

end LibZio
