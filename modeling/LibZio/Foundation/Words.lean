import Mathlib.Algebra.Group.Int.Defs
import Mathlib.Algebra.Group.Nat.Defs
import Mathlib.Data.Int.Basic
import Mathlib.Tactic.Common

/-! # Machine words

The C code computes with `size_t` (64 bits, unsigned) and `int` (32 bits, signed). A `size_t` is a
natural number below `2 ^ 64` and its operations are reduced modulo `2 ^ 64`; the conversions
between the two types are the usual ones. Each operation comes with the lemma that it is exact
while nothing wraps. A word of state flags is a `BitVec`, tested and updated through masks. -/

namespace LibZio

/-! ## `size_t` and `int` -/

/-- Addition of `size_t`. -/
def sizeAdd (a b : ℕ) : ℕ := (a + b) % 2 ^ 64

/-- Subtraction of `size_t`. -/
def sizeSub (a b : ℕ) : ℕ := (a + (2 ^ 64 - b % 2 ^ 64)) % 2 ^ 64

/-- `a << 1` on `size_t`. -/
def sizeShl1 (a : ℕ) : ℕ := (a * 2) % 2 ^ 64

/-- `a >> 2` on `size_t`. -/
def sizeShr2 (a : ℕ) : ℕ := a / 4

/-- Conversion of a `size_t` to `int`: the low 32 bits, read in two's complement. -/
def intOfSize (n : ℕ) : ℤ := (BitVec.ofNat 32 n).toInt

/-- Conversion of an `int` to `size_t`: sign extension. -/
def sizeOfInt (i : ℤ) : ℕ := (i % 2 ^ 64).toNat

/-- Addition is exact below `2 ^ 64`. -/
theorem sizeAdd_of_lt {a b : ℕ} (h : a + b < 2 ^ 64) : sizeAdd a b = a + b := by
  unfold sizeAdd; omega

/-- Subtraction is exact when it does not go below zero. -/
theorem sizeSub_of_le {a b : ℕ} (hb : b ≤ a) (ha : a < 2 ^ 64) : sizeSub a b = a - b := by
  unfold sizeSub; omega

/-- Doubling is exact below `2 ^ 63`. -/
theorem sizeShl1_of_lt {a : ℕ} (h : a < 2 ^ 63) : sizeShl1 a = a * 2 := by
  unfold sizeShl1; omega

/-- The conversion to `int` is exact below `2 ^ 31`. -/
theorem intOfSize_of_lt {n : ℕ} (h : n < 2 ^ 31) : intOfSize n = n := by
  have hn : (BitVec.ofNat 32 n).toNat = n := by rw [BitVec.toNat_ofNat]; omega
  rw [intOfSize, BitVec.toInt_eq_toNat_of_lt (by rw [hn]; omega), hn]

/-- The conversion of a non-negative `int` is exact. -/
theorem sizeOfInt_of_nonneg {i : ℤ} (h0 : 0 ≤ i) (h : i < 2 ^ 31) : sizeOfInt i = i.toNat := by
  unfold sizeOfInt; omega

/-- A number below `2 ^ 31` survives the round trip through `int`. -/
theorem sizeOfInt_natCast {n : ℕ} (h : n < 2 ^ 31) : sizeOfInt (n : ℤ) = n := by
  unfold sizeOfInt; omega

/-- A sum that wraps is smaller than either number added. -/
theorem sizeAdd_lt_of_wraps {a b : ℕ} (ha : a < 2 ^ 64) (hb : b < 2 ^ 64) (h : 2 ^ 64 ≤ a + b) :
    sizeAdd a b < a := by
  unfold sizeAdd; omega

/-- The conversion to `int` is the remainder nearest to zero. -/
theorem intOfSize_eq_bmod (n : ℕ) : intOfSize n = (n : ℤ).bmod (2 ^ 32) := by
  exact BitVec.toInt_ofNat' n

/-- The conversion to `int` is exact below `2 ^ 31` alone. -/
theorem intOfSize_eq_iff {n : ℕ} : intOfSize n = n ↔ n < 2 ^ 31 := by
  refine ⟨fun h => ?_, intOfSize_of_lt⟩
  rw [intOfSize_eq_bmod, Int.bmod] at h
  omega

/-- A length survives the round trip through `int` below `2 ^ 31` alone: above, the sign is extended
into the upper half of `size_t`, or the upper half is lost. -/
theorem sizeOfInt_intOfSize_iff {n : ℕ} (hn : n < 2 ^ 63) :
    sizeOfInt (intOfSize n) = n ↔ n < 2 ^ 31 := by
  refine ⟨fun h => ?_, fun h => by rw [intOfSize_of_lt h, sizeOfInt_natCast h]⟩
  rw [intOfSize_eq_bmod, Int.bmod, sizeOfInt] at h
  omega

/-! ## Flag words -/

variable {n : ℕ}

/-- The test `w & m`: some bit of the mask `m` is set in `w`. -/
def hasFlag (w m : BitVec n) : Bool := w &&& m != 0#n

/-- No bit is set in the zero word. -/
@[simp] theorem hasFlag_zero (m : BitVec n) : hasFlag 0#n m = false := by simp [hasFlag]

/-- Setting the bits of `a` does not change a test of other bits. -/
theorem hasFlag_or_of_disjoint (w : BitVec n) {a m : BitVec n} (h : a &&& m = 0#n) :
    hasFlag (w ||| a) m = hasFlag w m := by
  have hd : (w ||| a) &&& m = w &&& m := by
    rw [BitVec.and_comm, BitVec.and_or_distrib_left, BitVec.and_comm m w, BitVec.and_comm m a, h]
    simp
  rw [hasFlag, hasFlag, hd]

/-- After `w |= m` the test of a non-empty mask `m` succeeds. -/
theorem hasFlag_or_self (w : BitVec n) {m : BitVec n} (h : m ≠ 0#n) :
    hasFlag (w ||| m) m = true := by
  have hs : (w ||| m) &&& m = m := by
    ext i hi
    simp only [BitVec.getElem_and, BitVec.getElem_or]
    cases w[i] <;> simp
  simp [hasFlag, hs, h]

/-- `w &= a` clears every bit outside `a`. -/
theorem hasFlag_and_of_disjoint (w : BitVec n) {a m : BitVec n} (h : a &&& m = 0#n) :
    hasFlag (w &&& a) m = false := by
  rw [hasFlag, BitVec.and_assoc, h]
  simp

/-- `w &= ~a` does not change a test of bits outside `a`. -/
theorem hasFlag_andNot_of_disjoint (w : BitVec n) {a m : BitVec n} (h : a &&& m = 0#n) :
    hasFlag (w &&& ~~~a) m = hasFlag w m := by
  have hd : ~~~a &&& m = m := by
    ext i hi
    have hi' := congrArg (fun v => v.getLsbD i) h
    simp only [BitVec.getLsbD_and, BitVec.getLsbD_zero] at hi'
    simp only [BitVec.getElem_and, BitVec.getElem_not]
    rw [BitVec.getLsbD_eq_getElem hi, BitVec.getLsbD_eq_getElem hi] at hi'
    cases ha : a[i] <;> cases hm : m[i] <;> simp_all
  rw [hasFlag, hasFlag, BitVec.and_assoc, hd]

/-- After `w &= ~m` the test of `m` fails. -/
theorem hasFlag_andNot_self (w m : BitVec n) : hasFlag (w &&& ~~~m) m = false :=
  hasFlag_and_of_disjoint w (by ext i hi; simp)

end LibZio
