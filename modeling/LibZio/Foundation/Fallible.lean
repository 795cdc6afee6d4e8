import Mathlib.Tactic.Common

/-! # Fallible computations

A function of the C code becomes a computation in `Except ε`: it fails where the program aborts or
its behaviour is undefined. These lemmas take a successful run apart, one `bind` at a time. -/

namespace LibZio

universe u v

variable {ε : Type u} {α β : Type v}

/-- A sequence of two computations succeeds exactly when both do. -/
theorem bind_eq_ok {x : Except ε α} {f : α → Except ε β} {b : β} :
    x >>= f = .ok b ↔ ∃ a, x = .ok a ∧ f a = .ok b := by
  cases x with
  | error e => exact ⟨fun h => (nomatch h), fun ⟨_, h, _⟩ => (nomatch h)⟩
  | ok a => exact ⟨fun h => ⟨a, rfl, h⟩, fun ⟨_, h, hf⟩ => by cases h; exact hf⟩

/-- A mapped computation succeeds exactly when the computation does. -/
theorem map_eq_ok {x : Except ε α} {f : α → β} {b : β} :
    f <$> x = .ok b ↔ ∃ a, x = .ok a ∧ f a = b := by
  cases x with
  | error e => exact ⟨fun h => (nomatch h), fun ⟨_, h, _⟩ => (nomatch h)⟩
  | ok a => exact ⟨fun h => ⟨a, rfl, Except.ok.inj h⟩, fun ⟨_, h, hf⟩ => by cases h; rw [← hf]; rfl⟩

/-- A sequence of two computations fails exactly when the first does, or the second does after
it. -/
theorem bind_eq_error {x : Except ε α} {f : α → Except ε β} {e : ε} :
    x >>= f = .error e ↔ x = .error e ∨ ∃ a, x = .ok a ∧ f a = .error e := by
  cases x with
  | error e' =>
      exact ⟨fun h => .inl (by cases h; rfl), fun h => h.elim (fun h => by cases h; rfl)
        fun ⟨_, h, _⟩ => (nomatch h)⟩
  | ok a =>
      exact ⟨fun h => .inr ⟨a, rfl, h⟩, fun h => h.elim (fun h => (nomatch h))
        fun ⟨_, h, hf⟩ => by cases h; exact hf⟩

/-- `pure` succeeds with its argument. -/
@[simp] theorem pure_eq_ok {a b : α} : (pure a : Except ε α) = .ok b ↔ a = b :=
  ⟨fun h => by cases h; rfl, fun h => by rw [h]; rfl⟩

/-- A successful first computation leaves the second. -/
@[simp] theorem ok_bind (a : α) (f : α → Except ε β) : (Except.ok a >>= f) = f a := rfl

/-- Fail with `e` unless `c` holds. -/
def ensure (c : Bool) (e : ε) : Except ε PUnit := if c then .ok ⟨⟩ else .error e

/-- A passed check says that its condition holds. -/
@[simp] theorem ensure_eq_ok {c : Bool} {e : ε} {u : PUnit} : ensure c e = .ok u ↔ c = true := by
  cases c <;> simp [ensure]

/-- A failed check says that its condition does not hold. -/
@[simp] theorem ensure_eq_error {c : Bool} {e e' : ε} :
    ensure c e = .error e' ↔ c = false ∧ e = e' := by
  cases c <;> simp [ensure]

/-- A check whose condition holds passes. -/
@[simp] theorem ensure_true (e : ε) : ensure true e = .ok ⟨⟩ := rfl

/-- A value, or the failure `e` where there is none. -/
def orFail (x : Option α) (e : ε) : Except ε α :=
  match x with
  | some a => .ok a
  | none => .error e

/-- `orFail` succeeds exactly on a value. -/
@[simp] theorem orFail_eq_ok {x : Option α} {e : ε} {a : α} : orFail x e = .ok a ↔ x = some a := by
  cases x <;> simp [orFail]

/-- `orFail` fails exactly without a value. -/
@[simp] theorem orFail_eq_error {x : Option α} {e e' : ε} :
    orFail x e = .error e' ↔ x = none ∧ e = e' := by
  cases x <;> simp [orFail]

@[simp] theorem orFail_some (a : α) (e : ε) : orFail (some a) e = .ok a := rfl

/-! ## Which failures are possible -/

/-- A computation has no failure outside `P`. -/
def FailsIn (P : ε → Prop) (x : Except ε α) : Prop := ∀ e, x = .error e → P e

namespace FailsIn

variable {P : ε → Prop} {x : Except ε α}

theorem ok (a : α) : FailsIn P (.ok a : Except ε α) := fun _ h => nomatch h

theorem error {e : ε} (h : P e) : FailsIn P (.error e : Except ε α) :=
  fun _ he => by cases he; exact h

theorem ensure {c : Bool} {e : ε} (h : P e) : FailsIn P (ensure c e) :=
  fun _ he => (ensure_eq_error.mp he).2 ▸ h

theorem orFail {y : Option α} {e : ε} (h : P e) : FailsIn P (orFail y e) :=
  fun _ he => (orFail_eq_error.mp he).2 ▸ h

theorem ite {c : Prop} [Decidable c] {y : Except ε α} (hx : c → FailsIn P x)
    (hy : ¬c → FailsIn P y) : FailsIn P (if c then x else y) := by
  by_cases h : c
  · rw [if_pos h]; exact hx h
  · rw [if_neg h]; exact hy h

/-- A sequence fails where its first part does, or its second part after it. -/
theorem bind {f : α → Except ε β} (hx : FailsIn P x) (hf : ∀ a, x = .ok a → FailsIn P (f a)) :
    FailsIn P (x >>= f) := by
  intro e h
  obtain h | ⟨a, ha, h⟩ := bind_eq_error.mp h
  · exact hx e h
  · exact hf a ha e h

/-- A mapped computation fails where the computation does. -/
theorem map {f : α → β} (hx : FailsIn P x) : FailsIn P (f <$> x) := by
  intro e h
  cases x with
  | ok a => cases h
  | error e' => cases h; exact hx _ rfl

/-- A computation without a failure succeeds. -/
theorem returns (h : FailsIn (fun _ => False) x) : ∃ a, x = .ok a := by
  cases x with
  | ok a => exact ⟨a, rfl⟩
  | error e => exact (h e rfl).elim

end FailsIn

end LibZio
