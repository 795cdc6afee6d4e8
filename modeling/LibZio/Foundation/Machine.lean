import LibZio.Foundation.Fallible

/-! # Machines

A machine has an initial state and a partial step on inputs; a step that fails ends the run. A
*guard* singles out the steps of interest, and `Reach G` collects the states of the runs all of
whose steps satisfy the guard `G`. An invariant is proved once for the initial state and once for a
step, and then holds in every state reached; a further invariant may use the ones already known. -/

namespace LibZio

universe u v w

/-- A deterministic machine with inputs `ι`, states `σ` and failures `ε`. -/
structure Machine (σ : Type u) (ι : Type v) (ε : Type w) where
  /-- Where every run starts. -/
  init : σ
  /-- One step on an input. -/
  step : σ → ι → Except ε σ

namespace Machine

variable {σ : Type u} {ι : Type v} {ε : Type w} {M : Machine σ ι ε} {G H : σ → ι → Prop}

/-- The states reached by runs all of whose steps satisfy `G`. -/
inductive Reach (M : Machine σ ι ε) (G : σ → ι → Prop) : σ → Prop
  | init : Reach M G M.init
  | step {s s' : σ} {i : ι} (reach : Reach M G s) (guard : G s i) (run : M.step s i = .ok s') :
      Reach M G s'

/-- The guard that every step satisfies. -/
def anyStep : σ → ι → Prop := fun _ _ => True

/-- **Invariants.** What holds initially, and is preserved by every step from a reached state, holds
in every state reached. -/
theorem Reach.invariant {I : σ → Prop} (init : I M.init)
    (step : ∀ s i s', M.Reach G s → I s → G s i → M.step s i = .ok s' → I s') {s : σ}
    (r : M.Reach G s) : I s := by
  induction r with
  | init => exact init
  | step reach guard run ih => exact step _ _ _ reach ih guard run

/-- Feed a list of inputs to the machine. -/
def run (M : Machine σ ι ε) : List ι → σ → Except ε σ
  | [], s => .ok s
  | i :: is, s => do
      let s ← M.step s i
      M.run is s

/-- Feeding two lists one after the other. -/
theorem run_append {is js : List ι} {s t u : σ} (h : M.run is s = .ok t) (h' : M.run js t = .ok u) :
    M.run (is ++ js) s = .ok u := by
  induction is generalizing s with
  | nil => cases h; exact h'
  | cons i is ih =>
      obtain ⟨s', hs, hrest⟩ := bind_eq_ok.mp h
      exact bind_eq_ok.mpr ⟨s', hs, ih hrest⟩

/-- All steps of a run satisfy the guard. -/
def Meets (M : Machine σ ι ε) (G : σ → ι → Prop) : List ι → σ → Prop
  | [], _ => True
  | i :: is, s => G s i ∧ ∀ s', M.step s i = .ok s' → M.Meets G is s'

/-- `P` holds of every step of a run: of the state before, the input and the state after. -/
def Throughout (M : Machine σ ι ε) (P : σ → ι → σ → Prop) : List ι → σ → Prop
  | [], _ => True
  | i :: is, s => ∀ s', M.step s i = .ok s' → P s i s' ∧ M.Throughout P is s'

/-- Every run meets the guard that every step satisfies. -/
theorem meets_anyStep (is : List ι) (s : σ) : M.Meets anyStep is s := by
  induction is generalizing s with
  | nil => trivial
  | cons i is ih => exact ⟨trivial, fun s' _ => ih s'⟩

/-- A guard that gives another one, under an invariant that every step keeps, gives it in a run. -/
theorem Meets.imp {I : σ → Prop} (guard : ∀ s i, I s → G s i → H s i)
    (keeps : ∀ s i s', I s → M.step s i = .ok s' → I s') {is : List ι} {s : σ}
    (meets : M.Meets G is s)
    (hI : I s) : M.Meets H is s := by
  induction is generalizing s with
  | nil => trivial
  | cons i is ih =>
      exact ⟨guard s i hI meets.1, fun s' hs => ih (meets.2 s' hs) (keeps s i s' hI hs)⟩

/-- The input behind those of a run meets the guard where the run ends. -/
theorem Meets.last {is : List ι} {i : ι} {s t : σ} (meets : M.Meets G (is ++ [i]) s)
    (h : M.run is s = .ok t) : G t i := by
  induction is generalizing s with
  | nil => cases h; exact meets.1
  | cons j is ih =>
      obtain ⟨s', hs, hrest⟩ := bind_eq_ok.mp h
      exact ih (meets.2 s' hs) hrest

/-- What the guard gives for one step, under an invariant that guarded steps keep, it gives for
every step of a guarded run. -/
theorem throughout_of_meets {I : σ → Prop} {P : σ → ι → σ → Prop}
    (step : ∀ s i s', I s → G s i → M.step s i = .ok s' → P s i s' ∧ I s') {is : List ι} {s : σ}
    (hI : I s) (meets : M.Meets G is s) : M.Throughout P is s := by
  induction is generalizing s with
  | nil => trivial
  | cons i is ih =>
      intro s' hs
      obtain ⟨hP, hI'⟩ := step s i s' hI meets.1 hs
      exact ⟨hP, ih hI' (meets.2 s' hs)⟩

/-- What steps with `P` keep holds at the end of a run all of whose steps have `P`. -/
theorem Throughout.keeps {D : σ → Prop} {P : σ → ι → σ → Prop}
    (step : ∀ s i s', D s → P s i s' → M.step s i = .ok s' → D s') {is : List ι} {s t : σ}
    (all : M.Throughout P is s) (hD : D s) (h : M.run is s = .ok t) : D t := by
  induction is generalizing s with
  | nil => cases h; exact hD
  | cons i is ih =>
      obtain ⟨s', hs, hrest⟩ := bind_eq_ok.mp h
      obtain ⟨hP, hall⟩ := all s' hs
      exact ih hall (step s i s' hD hP hs) hrest

/-- Where one step has `P` only if it meets the guard, or else runs into a state `D` that no further
step with `P` leaves, a whole run that does not end in `D` meets the guard. -/
theorem Throughout.meets_or {I D : σ → Prop} {P : σ → ι → σ → Prop}
    (step : ∀ s i s', I s → P s i s' → M.step s i = .ok s' → G s i ∧ I s' ∨ D s')
    (stuck : ∀ s i s', D s → P s i s' → M.step s i = .ok s' → D s') {is : List ι} {s t : σ}
    (all : M.Throughout P is s) (hI : I s) (h : M.run is s = .ok t) (hD : ¬D t) :
    M.Meets G is s := by
  induction is generalizing s with
  | nil => trivial
  | cons i is ih =>
      obtain ⟨s', hs, hrest⟩ := bind_eq_ok.mp h
      obtain ⟨hP, hall⟩ := all s' hs
      rcases step s i s' hI hP hs with ⟨hG, hI'⟩ | hD'
      · refine ⟨hG, fun s'' hs'' => ?_⟩
        obtain rfl : s' = s'' := Except.ok.inj (hs.symm.trans hs'')
        exact ih hall hI' hrest
      · exact absurd (hall.keeps stuck hD' hrest) hD

/-- Where one step has `P` only if it meets the guard, a whole run has. -/
theorem Throughout.meets {I : σ → Prop} {P : σ → ι → σ → Prop}
    (step : ∀ s i s', I s → P s i s' → M.step s i = .ok s' → G s i ∧ I s') {is : List ι} {s t : σ}
    (all : M.Throughout P is s) (hI : I s) (h : M.run is s = .ok t) : M.Meets G is s :=
  all.meets_or (D := fun _ => False) (fun s i s' hI hP hs => .inl (step s i s' hI hP hs))
    (fun _ _ _ hD _ _ => hD) hI h id

/-- **Runs and steps.** Where, under an invariant that guarded steps keep, a step has `P` exactly
when it meets the guard, and a step that misses the guard is made, a run has `P` throughout exactly
when it meets the guard. -/
theorem throughout_iff_meets {I : σ → Prop} {P : σ → ι → σ → Prop}
    (step : ∀ s i s', I s → M.step s i = .ok s' → (P s i s' ↔ G s i))
    (keeps : ∀ s i s', I s → G s i → M.step s i = .ok s' → I s')
    (made : ∀ s i, I s → ¬ G s i → ∃ s', M.step s i = .ok s') {is : List ι} {s : σ} (hI : I s) :
    M.Throughout P is s ↔ M.Meets G is s := by
  constructor
  · intro all
    induction is generalizing s with
    | nil => trivial
    | cons i is ih =>
        have hG : G s i := by
          by_contra hG
          obtain ⟨s', hs⟩ := made s i hI hG
          exact hG ((step s i s' hI hs).mp (all s' hs).1)
        exact ⟨hG, fun s' hs => ih (keeps s i s' hI hG hs) (all s' hs).2⟩
  · exact throughout_of_meets (fun s i s' hI hG hs =>
      ⟨(step s i s' hI hs).mpr hG, keeps s i s' hI hG hs⟩) hI

/-- **Guards that agree.** Where, under an invariant that steps with `H` keep, an input with `B`
meets `G` exactly when it meets `H`, a run on such inputs meets the one exactly when it meets the
other. -/
theorem meets_iff_meets {I : σ → Prop} {B : σ → ι → Prop}
    (same : ∀ s i, I s → B s i → (G s i ↔ H s i))
    (keeps : ∀ s i s', I s → B s i → H s i → M.step s i = .ok s' → I s') {is : List ι} {s : σ}
    (inputs : M.Meets B is s) (hI : I s) : M.Meets G is s ↔ M.Meets H is s := by
  induction is generalizing s with
  | nil => exact Iff.rfl
  | cons i is ih =>
      obtain ⟨hi, his⟩ := inputs
      rw [Meets, Meets, same s i hI hi]
      refine and_congr_right fun hH => forall_congr' fun s' => forall_congr' fun hs => ?_
      exact ih (his s' hs) (keeps s i s' hI hi hH hs)

/-- Inputs that are all alike make a run that is. -/
theorem meets_of_forall {B : ι → Prop} {is : List ι} (h : ∀ i ∈ is, B i) (s : σ) :
    M.Meets (fun _ => B) is s := by
  induction is generalizing s with
  | nil => trivial
  | cons i is ih =>
      obtain ⟨hi, his⟩ := List.forall_mem_cons.mp h
      exact ⟨hi, fun s' _ => ih his s'⟩

/-! ## Runs on given inputs -/

/-- Whether the inputs take the machine, by steps that satisfy `G`, to a state that satisfies
`P`. -/
def leadsTo (M : Machine σ ι ε) (G : σ → ι → Prop) [∀ s i, Decidable (G s i)] (P : σ → Bool) :
    List ι → σ → Bool
  | [], s => P s
  | i :: is, s =>
      decide (G s i) &&
        match M.step s i with
        | .ok s' => M.leadsTo G P is s'
        | .error _ => false

/-- A run that leads to a state shows that the state is reached. -/
theorem Reach.of_leadsTo [∀ s i, Decidable (G s i)] {P : σ → Bool} {is : List ι} {s : σ}
    (r : M.Reach G s) (h : M.leadsTo G P is s = true) : ∃ s', M.Reach G s' ∧ P s' = true := by
  induction is generalizing s with
  | nil => exact ⟨s, r, h⟩
  | cons i is ih =>
      obtain ⟨hg, h⟩ := (Bool.and_eq_true _ _).mp h
      cases hs : M.step s i with
      | error e => rw [hs] at h; cases h
      | ok s' =>
          rw [hs] at h
          exact ih (r.step (of_decide_eq_true hg) hs) h

/-- A run that leads to a state meets the guard. -/
theorem meets_of_leadsTo [∀ s i, Decidable (G s i)] {P : σ → Bool} {is : List ι} {s : σ}
    (h : M.leadsTo G P is s = true) : M.Meets G is s := by
  induction is generalizing s with
  | nil => trivial
  | cons i is ih =>
      obtain ⟨hg, h⟩ := (Bool.and_eq_true _ _).mp h
      refine ⟨of_decide_eq_true hg, fun s' hs => ih ?_⟩
      rw [hs] at h
      exact h

/-- What holds of every step of a run holds of the step that leads to the state at its end. -/
theorem Throughout.at_end [∀ s i, Decidable (G s i)] {P : σ → ι → σ → Prop} {Q : σ → Bool}
    {is : List ι}
    {s : σ} (all : M.Throughout P is s) (some : is ≠ []) (h : M.leadsTo G Q is s = true) :
    ∃ t i u, P t i u ∧ Q u = true := by
  induction is generalizing s with
  | nil => exact absurd rfl some
  | cons i is ih =>
      obtain ⟨-, h⟩ := (Bool.and_eq_true _ _).mp h
      cases hs : M.step s i with
      | error e => rw [hs] at h; cases h
      | ok s' =>
          rw [hs] at h
          obtain ⟨hP, hall⟩ := all s' hs
          cases is with
          | nil => exact ⟨s, i, s', hP, h⟩
          | cons j js => exact ih hall (List.cons_ne_nil j js) h

/-- A run on given inputs can be asked whether it meets a guard. -/
instance decidableMeets [∀ s i, Decidable (G s i)] : ∀ is s, Decidable (M.Meets G is s)
  | [], _ => .isTrue trivial
  | i :: is, s =>
      match hs : M.step s i with
      | .ok s' =>
          have : Decidable (M.Meets G is s') := decidableMeets is s'
          decidable_of_iff (G s i ∧ M.Meets G is s') <| by
            rw [Meets, hs]
            simp
      | .error e => decidable_of_iff (G s i) <| by
          rw [Meets, hs]
          simp

instance (s : σ) (i : ι) : Decidable (anyStep s i) := inferInstanceAs (Decidable True)

end Machine

end LibZio
