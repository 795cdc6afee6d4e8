import LibZio.Foundation.Machine
import Mathlib.Logic.Function.Basic
import Mathlib.Logic.Relation

/-! # Threads and locks

Threads run code that locks and unlocks mutexes and, in between, reads and writes shared data; one
instruction at a time, in any interleaving. A thread whose next instruction locks a mutex that a
thread holds *waits* for that thread, and threads that wait for each other in a cycle are
deadlocked. There is no deadlock where mutexes are ranked and every waiting thread asks above all it
holds. -/

namespace LibZio

universe u v w

/-- Code over the mutexes `μ` and the shared data `σ`. -/
inductive Code (μ : Type u) (σ : Type v) : Type (max u v)
  | done
  | lock (m : μ) (next : Code μ σ)
  | unlock (m : μ) (next : Code μ σ)
  | branch (next : σ → Code μ σ)
  | update (f : σ → σ) (next : Code μ σ)

/-- Why a thread does not step. -/
inductive LockFault
  /-- It waits for a mutex. -/
  | blocked
  /-- It unlocks a mutex that it does not hold. -/
  | notOwner
  /-- It has nothing to run, or something still to run. -/
  | idle
  deriving DecidableEq, Repr

/-- Threads `τ` with what each has still to run, the owners of the mutexes, and the shared data. -/
structure Threads (τ : Type w) (μ : Type u) (σ : Type v) where
  code : τ → Code μ σ
  owner : μ → Option τ
  data : σ

namespace Threads

variable {τ : Type w} {μ : Type u} {σ : Type v} [DecidableEq τ] [DecidableEq μ]

/-- Give a thread something to run. -/
def load (s : Threads τ μ σ) (t : τ) (c : Code μ σ) : Threads τ μ σ :=
  { s with code := Function.update s.code t c }

/-- Set the owner of a mutex. -/
def own (s : Threads τ μ σ) (m : μ) (t : Option τ) : Threads τ μ σ :=
  { s with owner := Function.update s.owner m t }

/-- Write the shared data. -/
def write (s : Threads τ μ σ) (f : σ → σ) : Threads τ μ σ := { s with data := f s.data }

omit [DecidableEq μ] in
@[simp] theorem load_code_self (s : Threads τ μ σ) (t : τ) (c : Code μ σ) :
    (s.load t c).code t = c := Function.update_self ..

omit [DecidableEq μ] in
theorem load_code_of_ne (s : Threads τ μ σ) {t t' : τ} (ne : t' ≠ t) (c : Code μ σ) :
    (s.load t c).code t' = s.code t' := Function.update_of_ne ne ..

omit [DecidableEq μ] in
@[simp] theorem load_owner (s : Threads τ μ σ) (t : τ) (c : Code μ σ) :
    (s.load t c).owner = s.owner := rfl

omit [DecidableEq τ] in
@[simp] theorem own_owner_self (s : Threads τ μ σ) (m : μ) (t : Option τ) :
    (s.own m t).owner m = t := Function.update_self ..

/-- One instruction of a thread. -/
def step (s : Threads τ μ σ) (t : τ) : Except LockFault (Threads τ μ σ) :=
  match s.code t with
  | .done => .error .idle
  | .lock m next =>
      match s.owner m with
      | none => .ok ((s.own m (some t)).load t next)
      | some _ => .error .blocked
  | .unlock m next =>
      if s.owner m = some t then .ok ((s.own m none).load t next) else .error .notOwner
  | .branch next => .ok (s.load t (next s.data))
  | .update f next => .ok ((s.write f).load t next)

/-- The effect of an instruction. -/
inductive Stepped (s : Threads τ μ σ) (t : τ) : Threads τ μ σ → Prop
  | lock {m : μ} {next : Code μ σ} (code : s.code t = .lock m next) (free : s.owner m = none) :
      Stepped s t ((s.own m (some t)).load t next)
  | unlock {m : μ} {next : Code μ σ} (code : s.code t = .unlock m next)
      (mine : s.owner m = some t) : Stepped s t ((s.own m none).load t next)
  | branch {next : σ → Code μ σ} (code : s.code t = .branch next) :
      Stepped s t (s.load t (next s.data))
  | update {f : σ → σ} {next : Code μ σ} (code : s.code t = .update f next) :
      Stepped s t ((s.write f).load t next)

/-- A step has one of the effects. -/
theorem stepped_of_step {s s' : Threads τ μ σ} {t : τ} (h : s.step t = .ok s') :
    s.Stepped t s' := by
  unfold step at h
  cases hc : s.code t with
  | done => rw [hc] at h; cases h
  | lock m next =>
      rw [hc] at h
      cases ho : s.owner m with
      | none => simp only [ho] at h; cases h; exact .lock hc ho
      | some t' => simp only [ho] at h; cases h
  | unlock m next =>
      rw [hc] at h
      dsimp only at h
      by_cases ho : s.owner m = some t
      · rw [if_pos ho] at h; cases h; exact .unlock hc ho
      · rw [if_neg ho] at h; cases h
  | branch next => rw [hc] at h; cases h; exact .branch hc
  | update f next => rw [hc] at h; cases h; exact .update hc

/-- The other threads keep their code. -/
theorem Stepped.code_of_ne {s s' : Threads τ μ σ} {t t' : τ} (h : s.Stepped t s') (ne : t' ≠ t) :
    s'.code t' = s.code t' := by
  cases h <;> exact Function.update_of_ne ne ..

/-- The other threads keep their mutexes, and get none. -/
theorem Stepped.owner_of_ne {s s' : Threads τ μ σ} {t t' : τ} (h : s.Stepped t s') (ne : t' ≠ t)
    (m : μ) : s'.owner m = some t' ↔ s.owner m = some t' := by
  cases h with
  | @lock m' _ _ free =>
      by_cases hm : m = m'
      · subst hm
        have new : Function.update s.owner m (some t) m = some t := Function.update_self ..
        refine iff_of_false (fun h => ne ?_) (fun h => nomatch free.symm.trans h)
        exact (Option.some.inj (new.symm.trans h)).symm
      · exact Eq.congr_left (Function.update_of_ne hm ..)
  | @unlock m' _ _ mine =>
      by_cases hm : m = m'
      · subst hm
        have new : Function.update s.owner m none m = none := Function.update_self ..
        refine iff_of_false (fun h => nomatch new.symm.trans h) (fun h => ne ?_)
        exact (Option.some.inj (mine.symm.trans h)).symm
      · exact Eq.congr_left (Function.update_of_ne hm ..)
  | branch => exact Iff.rfl
  | update => exact Iff.rfl

omit [DecidableEq τ] [DecidableEq μ] in
/-- A thread asks for a mutex. -/
def Asks (s : Threads τ μ σ) (t : τ) (m : μ) : Prop := ∃ next, s.code t = .lock m next

/-- A thread waits for another, which holds the mutex it asks for. -/
def Waits (s : Threads τ μ σ) (t t' : τ) : Prop := ∃ m, s.Asks t m ∧ s.owner m = some t'

/-- Some threads wait on each other in a cycle. -/
def Deadlocked (s : Threads τ μ σ) : Prop := ∃ t, Relation.TransGen s.Waits t t

omit [DecidableEq τ] [DecidableEq μ] in
/-- **Lock ranks.** Where every thread that asks for a mutex holds only mutexes of lower rank, there
is no deadlock: along a chain of waiting threads the ranks asked for go up. -/
theorem not_deadlocked {s : Threads τ μ σ} (rank : μ → ℕ)
    (above : ∀ t m, s.Asks t m → ∀ m', s.owner m' = some t → rank m' < rank m) :
    ¬s.Deadlocked := by
  -- at the end of a chain, what is asked for ranks above what was asked for at its start
  have climb : ∀ {t t'}, Relation.TransGen s.Waits t t' → ∃ m, s.Asks t m ∧
      ∃ m₀, s.owner m₀ = some t' ∧ rank m ≤ rank m₀ := by
    intro t t' chain
    induction chain with
    | single wait =>
        obtain ⟨m, asks, holds⟩ := wait
        exact ⟨m, asks, m, holds, Nat.le_refl _⟩
    | tail _ wait ih =>
        obtain ⟨m, asks, m₀, holds₀, le⟩ := ih
        obtain ⟨m₁, asks₁, holds₁⟩ := wait
        have lt := above _ m₁ asks₁ m₀ holds₀
        exact ⟨m, asks, m₁, holds₁, Nat.le_trans le (Nat.le_of_lt lt)⟩
  rintro ⟨t, cycle⟩
  obtain ⟨m, asks, m₀, holds, le⟩ := climb cycle
  exact absurd (above t m asks m₀ holds) (Nat.not_lt.mpr le)

end Threads

end LibZio
