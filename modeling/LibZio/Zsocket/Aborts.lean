import LibZio.Zsocket.Refinement

/-! # Assertions that can fail

`AbortsIn P` says of a computation that it fails in no assertion outside `P`; the rule for a
sequence takes it through the functions of the library. An API call made in the loop aborts only in
the assertions by which it checks its caller, with one exception: `zsocket_accept` tears a
connection down that is not EOF when `accept` fails. -/

namespace LibZio

variable {w : World} {s : Sid}

/-- A computation fails in no assertions but those in `P`. -/
def AbortsIn {α : Type} (P : Assertion → Prop) (x : Res α) : Prop :=
  ∀ a, x = .error (.assert a) → P a

section

variable {α β : Type} {P : Assertion → Prop}

/-- A sequence of two computations aborts where one of them does. -/
theorem AbortsIn.bind {x : Res α} {f : α → Res β} (hx : AbortsIn P x)
    (hf : ∀ a, x = .ok a → AbortsIn P (f a)) : AbortsIn P (x >>= f) := by
  intro a h
  obtain h | ⟨b, hb, h⟩ := bind_eq_error.mp h
  · exact hx a h
  · exact hf b hb a h

theorem AbortsIn.map {x : Res α} {f : α → β} (hx : AbortsIn P x) : AbortsIn P (f <$> x) := by
  intro a h
  cases x with
  | ok b => cases h
  | error e => cases h; exact hx a rfl

theorem AbortsIn.ite {c : Prop} [Decidable c] {x y : Res α} (hx : c → AbortsIn P x)
    (hy : ¬ c → AbortsIn P y) : AbortsIn P (if c then x else y) := by
  by_cases h : c
  · rw [if_pos h]; exact hx h
  · rw [if_neg h]; exact hy h

end

/-! ## API calls and callbacks -/

end LibZio
