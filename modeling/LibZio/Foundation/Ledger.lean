import Mathlib.Data.List.Perm.Basic

/-! # Ledgers

A record of events, newest first, in which some events acquire a resource and some release one. A
*sound* record releases only what is held; then what was acquired is what was released together with
what is held, and nothing is held exactly when every acquisition has its release. -/

namespace LibZio

universe u v

/-- What an event does to the resources `α`. -/
inductive Entry (α : Type u)
  | acquire (a : α)
  | release (a : α)
  | neither

namespace Ledger

variable {ε : Type v} {α : Type u} (entry : ε → Entry α)

/-- The resources acquired, with repetition. -/
def acquired : List ε → List α
  | [] => []
  | e :: es =>
      match entry e with
      | .acquire a => a :: acquired es
      | _ => acquired es

/-- The resources released, with repetition. -/
def released : List ε → List α
  | [] => []
  | e :: es =>
      match entry e with
      | .release a => a :: released es
      | _ => released es

variable [DecidableEq α]

/-- The resources acquired and not yet released. -/
def held : List ε → List α
  | [] => []
  | e :: es =>
      match entry e with
      | .acquire a => a :: held es
      | .release a => (held es).erase a
      | .neither => held es

/-- Only what is held is released. -/
def Sound : List ε → Prop
  | [] => True
  | e :: es =>
      match entry e with
      | .release a => a ∈ held entry es ∧ Sound es
      | _ => Sound es

/-- An acquisition adds to what is held. -/
theorem held_acquire {e : ε} {es : List ε} {a : α} (he : entry e = .acquire a) :
    held entry (e :: es) = a :: held entry es := by rw [held, he]

/-- A release takes from what is held. -/
theorem held_release {e : ε} {es : List ε} {a : α} (he : entry e = .release a) :
    held entry (e :: es) = (held entry es).erase a := by rw [held, he]

/-- An acquisition is sound. -/
theorem sound_acquire {e : ε} {es : List ε} {a : α} (he : entry e = .acquire a) :
    Sound entry (e :: es) ↔ Sound entry es := by rw [Sound, he]

/-- A release of what is held is sound. -/
theorem sound_release {e : ε} {es : List ε} {a : α} (he : entry e = .release a) :
    Sound entry (e :: es) ↔ a ∈ held entry es ∧ Sound entry es := by rw [Sound, he]

/-- Events that touch no resource leave what is held. -/
theorem held_append {es fs : List ε} (h : ∀ e ∈ es, entry e = .neither) :
    held entry (es ++ fs) = held entry fs := by
  induction es with
  | nil => rfl
  | cons e es ih =>
      rw [List.cons_append, held, h e (List.mem_cons_self ..)]
      exact ih fun e' he' => h e' (List.mem_cons_of_mem _ he')

omit [DecidableEq α] in
/-- Events that touch no resource leave what was acquired. -/
theorem acquired_append {es fs : List ε} (h : ∀ e ∈ es, entry e = .neither) :
    acquired entry (es ++ fs) = acquired entry fs := by
  induction es with
  | nil => rfl
  | cons e es ih =>
      rw [List.cons_append, acquired, h e (List.mem_cons_self ..)]
      exact ih fun e' he' => h e' (List.mem_cons_of_mem _ he')

omit [DecidableEq α] in
/-- Events that touch no resource leave what was released. -/
theorem released_append {es fs : List ε} (h : ∀ e ∈ es, entry e = .neither) :
    released entry (es ++ fs) = released entry fs := by
  induction es with
  | nil => rfl
  | cons e es ih =>
      rw [List.cons_append, released, h e (List.mem_cons_self ..)]
      exact ih fun e' he' => h e' (List.mem_cons_of_mem _ he')

/-- Events that touch no resource are sound. -/
theorem sound_append {es fs : List ε} (h : ∀ e ∈ es, entry e = .neither) :
    Sound entry (es ++ fs) ↔ Sound entry fs := by
  induction es with
  | nil => exact Iff.rfl
  | cons e es ih =>
      rw [List.cons_append, Sound, h e (List.mem_cons_self ..)]
      exact ih fun e' he' => h e' (List.mem_cons_of_mem _ he')

/-- What is still held after something else is released. -/
theorem mem_held_of_ne {e : ε} {es : List ε} {a b : α} (he : entry e = .release a) (ne : b ≠ a)
    (h : b ∈ held entry es) : b ∈ held entry (e :: es) := by
  rw [held_release entry he]
  exact (List.mem_erase_of_ne ne).mpr h

/-- Releasing the only resource held leaves none. -/
theorem held_release_single {e : ε} {es : List ε} {a : α} (he : entry e = .release a)
    (h : held entry es = [a]) : held entry (e :: es) = [] := by
  rw [held_release entry he, h]
  exact List.erase_cons_head ..

/-- **The balance.** What was acquired was released or is held. -/
theorem acquired_perm {es : List ε} (sound : Sound entry es) :
    (acquired entry es).Perm (released entry es ++ held entry es) := by
  induction es with
  | nil => exact List.Perm.refl _
  | cons e es ih =>
      unfold acquired released held
      unfold Sound at sound
      cases he : entry e with
      | neither =>
          rw [he] at sound
          exact ih sound
      | acquire a =>
          rw [he] at sound
          exact ((ih sound).cons a).trans List.perm_middle.symm
      | release a =>
          rw [he] at sound
          have back : (held entry es).Perm (a :: (held entry es).erase a) :=
            List.perm_cons_erase sound.1
          have split := (ih sound.2).trans (back.append_left (released entry es))
          exact split.trans List.perm_middle

/-- Nothing is held exactly when every acquisition has its release. -/
theorem held_eq_nil_iff {es : List ε} (sound : Sound entry es) :
    held entry es = [] ↔ (acquired entry es).Perm (released entry es) := by
  have balance := acquired_perm entry sound
  constructor
  · intro h
    rw [h, List.append_nil] at balance
    exact balance
  · intro h
    have hlen := (h.symm.trans balance).length_eq
    rw [List.length_append] at hlen
    exact List.eq_nil_of_length_eq_zero (by omega)

end Ledger

end LibZio
