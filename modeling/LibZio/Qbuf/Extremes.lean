import LibZio.Qbuf.Spec

/-! # `qbuf` at the extremes of its arguments

The operations of `qbuf.c` guard against nothing at the ends of `size_t` and `int`. This file takes
them at any arguments at all and says exactly when they still do what their names say. `qbuf_read`
passes its count through an `int`, and is exact while the count fits in one. The representation
invariant survives every call that neither shrinks the block below the in head nor wraps a sum or a
doubling. -/

namespace LibZio

variable {q q' : QBuf} {len : ℕ} {buf : List UInt8} {re : Realloc}

/-! ## The count of `qbuf_read` -/

/-- `qbuf_read` copies out, returns and skips as many bytes as are asked for and stored. -/
def ReadsExactly (q : QBuf) (len : ℕ) : Prop :=
  ∃ buf q', qbufRead q len = some (min len (qbufUsed q), buf, q') ∧
    buf.length = min len (qbufUsed q) ∧ q'.offsetOut = q.offsetOut + min len (qbufUsed q)

/-- The count `qbuf_read` returns is the number of bytes copied, taken through an `int`. -/
theorem qbufRead_count (h : q.Valid) (len : ℕ) :
    ∃ q', qbufRead q len
      = some (sizeOfInt (intOfSize (min len (qbufUsed q))), (stored q).take len, q') :=
  ⟨_, by simp only [qbufRead, qbufPeek_eq h, Option.bind_eq_bind, Option.bind_some]; rfl⟩

/-- An exact read is one whose count fits in an `int`. -/
theorem ReadsExactly.fits (h : q.Valid) (hs : q.size < 2 ^ 63) (hr : ReadsExactly q len) :
    min len (qbufUsed q) < 2 ^ 31 := by
  obtain ⟨buf, q', hread, -, -⟩ := hr
  obtain ⟨q'', hcount⟩ := qbufRead_count h len
  have hround : sizeOfInt (intOfSize (min len (qbufUsed q))) = min len (qbufUsed q) :=
    (Prod.mk.inj (Option.some.inj (hcount.symm.trans hread))).1
  have hused := h.used_le_size
  exact (sizeOfInt_intOfSize_iff (by omega)).mp hround

/-- **`qbuf_read` is exact if and only if the bytes to be read can be counted by an `int`.** -/
theorem qbufRead_exact_iff (h : q.Valid) (hs : q.size < 2 ^ 63) :
    ReadsExactly q len ↔ min len (qbufUsed q) < 2 ^ 31 := by
  refine ⟨fun hr => hr.fits h hs, fun hn => ⟨_, _, qbufRead_eq h hn, ?_, rfl⟩⟩
  rw [List.length_take, h.length_stored]

/-- A buffer full of `n` zero bytes. -/
def fullBuf (n : ℕ) : QBuf := { rawbuf := zeroed n, size := n, offsetIn := n, offsetOut := 0 }

theorem fullBuf_valid {n : ℕ} (h : n < 2 ^ 64) : (fullBuf n).Valid :=
  ⟨Nat.zero_le _, le_rfl, (List.length_replicate ..).symm, h⟩

theorem qbufUsed_fullBuf {n : ℕ} (h : n < 2 ^ 64) : qbufUsed (fullBuf n) = n :=
  (fullBuf_valid h).used_eq

theorem qbufRead_exact_full : ReadsExactly (fullBuf 5) 3 :=
  (qbufRead_exact_iff (fullBuf_valid (by decide)) (by decide)).mpr (by decide)

/-- Two gigabytes cannot be read at once: the count turns negative. -/
theorem qbufRead_not_exact : ¬ ReadsExactly (fullBuf (2 ^ 31)) (2 ^ 31) := by
  intro hr
  have hfits := hr.fits (fullBuf_valid (by omega)) (by simp only [fullBuf]; omega)
  rw [qbufUsed_fullBuf (by omega)] at hfits
  omega

/-! ## The representation invariant under every call -/

/-- An exported operation of `qbuf.c` that changes the buffer, with its arguments and, where it
reallocates, what `realloc` does. -/
inductive BufOp
  | realloc (len : ℕ) (re : Realloc)
  | collect (policy : BitVec 32)
  | offsetInHead (len : ℕ)
  | offsetOutHead (len : ℕ)
  | write (buf : List UInt8) (re : Realloc)

namespace BufOp

/-- The buffer after the call. -/
def run (q : QBuf) : BufOp → Option QBuf
  | .realloc len re => some (qbufRealloc q len re).2
  | .collect policy => (·.2) <$> qbufCollect q policy
  | .offsetInHead len => some (qbufOffsetInHead q len).2
  | .offsetOutHead len => some (qbufOffsetOutHead q len).2
  | .write buf re => (·.2) <$> qbufWrite q buf re

/-- The lengths are `size_t`s, and `qbuf_realloc` is asked for some bytes. -/
def Typed : BufOp → Prop
  | .realloc len _ => len ≠ 0 ∧ len < 2 ^ 64
  | .collect _ => True
  | .offsetInHead len => len < 2 ^ 64
  | .offsetOutHead len => len < 2 ^ 64
  | .write buf _ => buf.length < 2 ^ 64

/-- The call moves a head by a length it is given. -/
def MovesHead : BufOp → Prop
  | .offsetInHead _ => True
  | .offsetOutHead _ => True
  | _ => False

/-- The buffer after the call has its heads in order inside the block, so that `qbuf_used` and
`qbuf_spare` do not wrap, and a head move went forward. -/
structure Keeps (c : BufOp) (q q' : QBuf) : Prop where
  ordered : q'.offsetOut ≤ q'.offsetIn ∧ q'.offsetIn ≤ q'.size
  used : qbufUsed q' + q'.offsetOut = q'.offsetIn
  spare : qbufSpare q' + q'.offsetIn = q'.size
  forward : c.MovesHead → q.offsetOut ≤ q'.offsetOut ∧ q.offsetIn ≤ q'.offsetIn

/-- Nothing is cut off: a reallocation that succeeds leaves the in head inside the block, the sum of
a head move stays below `2 ^ 64`, and the doubled length `qbuf_write` may ask `realloc` for, wrapped
or not, holds the bytes already stored. -/
def Stays (q : QBuf) : BufOp → Prop
  | .realloc len re => re = none ∨ q.offsetIn ≤ len
  | .collect _ => True
  | .offsetInHead len => q.offsetIn + len < 2 ^ 64
  | .offsetOutHead len => q.offsetOut + len < 2 ^ 64
  | .write buf re =>
      qbufUsed q + buf.length ≤ q.size ∨ re = none ∨ qbufUsed q ≤ growTo q.size buf.length

/-- A valid buffer behind heads that went forward is what the call should leave. -/
theorem Keeps.of_valid {c : BufOp} (h : q'.Valid)
    (hf : c.MovesHead → q.offsetOut ≤ q'.offsetOut ∧ q.offsetIn ≤ q'.offsetIn) : c.Keeps q q' := by
  have hout := h.out_le; have hin := h.in_le
  exact ⟨⟨hout, hin⟩, by rw [h.used_eq]; omega, by rw [h.spare_eq]; omega, hf⟩

/-- The same for a call that is no head move. -/
theorem Keeps.of_valid' {c : BufOp} (h : q'.Valid) (hc : ¬ c.MovesHead) : c.Keeps q q' :=
  .of_valid h (absurd · hc)

/-- `qbuf_realloc` keeps the order unless it cuts the block off below the in head. -/
theorem realloc_keeps_iff (h : q.Valid) (hlen : len < 2 ^ 64) :
    (realloc len re).Keeps q (qbufRealloc q len re).2 ↔ (realloc len re).Stays q := by
  cases re with
  | none => exact ⟨fun _ => .inl rfl, fun _ => .of_valid' h not_false⟩
  | some fill =>
      refine ⟨fun hk => .inr hk.ordered.2, ?_⟩
      rintro (hre | hin)
      · cases hre
      · exact .of_valid' (qbufRealloc_some h fill hin hlen).1 not_false

/-- `qbuf_offset_in_head` keeps the order and goes forward unless its sum wraps. -/
theorem offsetInHead_keeps_iff (h : q.Valid) (hlen : len < 2 ^ 64) :
    (offsetInHead len).Keeps q (qbufOffsetInHead q len).2 ↔ (offsetInHead len).Stays q := by
  have hout := h.out_le; have hin := h.in_le; have hsize := h.size_lt
  constructor
  · intro hk
    by_contra hwraps
    -- the wrapped head lies behind the old one, and the clamp does not see it
    have hsum := sizeAdd_lt_of_wraps (show q.offsetIn < 2 ^ 64 by omega) hlen (not_lt.mp hwraps)
    have hforward := (hk.forward trivial).2
    simp only [qbufOffsetInHead] at hforward
    rw [if_neg (by omega)] at hforward
    simp only at hforward
    omega
  · intro hstays
    have hsum : sizeAdd q.offsetIn len = q.offsetIn + len := sizeAdd_of_lt hstays
    simp only [qbufOffsetInHead, hsum]
    split
    · exact .of_valid ⟨le_trans hout hin, le_rfl, h.size_eq, h.size_lt⟩ fun _ => ⟨le_rfl, hin⟩
    · exact .of_valid ⟨by simp only; omega, by simp only; omega, h.size_eq, h.size_lt⟩
        fun _ => ⟨le_rfl, Nat.le_add_right _ _⟩

/-- `qbuf_offset_out_head` keeps the order and goes forward unless its sum wraps. -/
theorem offsetOutHead_keeps_iff (h : q.Valid) (hlen : len < 2 ^ 64) :
    (offsetOutHead len).Keeps q (qbufOffsetOutHead q len).2 ↔ (offsetOutHead len).Stays q := by
  have hout := h.out_le; have hin := h.in_le; have hsize := h.size_lt
  constructor
  · intro hk
    by_contra hwraps
    have hsum := sizeAdd_lt_of_wraps (show q.offsetOut < 2 ^ 64 by omega) hlen (not_lt.mp hwraps)
    have hforward := (hk.forward trivial).1
    simp only [qbufOffsetOutHead] at hforward
    rw [if_neg (by omega)] at hforward
    simp only at hforward
    omega
  · intro hstays
    rw [qbufOffsetOutHead_eq h hstays]
    exact .of_valid (h.skip (Nat.min_le_right _ _)) fun _ => ⟨Nat.le_add_right _ _, le_rfl⟩

/-- Nothing is stored at an in head behind the end of the block. -/
theorem writeTail_eq_none (hin : q.rawbuf.length < q.offsetIn) (buf : List UInt8) :
    writeTail q buf = none := by
  have hstore (bs : List UInt8) : store q.rawbuf (qbufRawbufInPos q) bs = none :=
    if_neg (by simp only [qbufRawbufInPos]; omega)
  simp only [writeTail, hstore, Option.bind_eq_bind, Option.bind_none]

/-- `qbuf_write` keeps the order unless it reallocates to a doubled length that wrapped below the
bytes already stored; then it stores outside the block. -/
theorem write_keeps_iff (h : q.Valid) :
    (∃ q', (write buf re).run q = some q' ∧ (write buf re).Keeps q q') ↔
      (write buf re).Stays q := by
  have hkept {m : QBuf} (hm : m.Valid) (hw : qbufWrite q buf re = writeTail m buf) :
      ∃ q', (write buf re).run q = some q' ∧ (write buf re).Keeps q q' := by
    refine ⟨_, by rw [run, hw, writeTail_eq hm]; rfl, .of_valid' ?_ not_false⟩
    exact hm.append (List.length_take_le _ _)
  obtain ⟨m, hm, -, -, hfit, -, hw⟩ | ⟨c, hc, -, hcz, hcin, hno, hw⟩ := qbufWrite_cases h buf re
  · exact ⟨fun _ => .inl hfit, fun _ => hkept hm hw⟩
  · cases re with
    | none => exact ⟨fun _ => .inr (.inl rfl), fun _ => hkept hc hw⟩
    | some fill =>
        constructor
        · rintro ⟨q', hrun, -⟩
          refine .inr (.inr ?_)
          by_contra hcut
          have hshort : (qbufRealloc c (growTo q.size buf.length) (some fill)).2.rawbuf.length
              < (qbufRealloc c (growTo q.size buf.length) (some fill)).2.offsetIn := by
            simp only [qbufRealloc, length_resized, hcin]
            omega
          rw [run, hw, writeTail_eq_none hshort] at hrun
          cases hrun
        · rintro (hfit | hre | hused)
          · exact absurd hfit hno
          · cases hre
          · have hlt : growTo q.size buf.length < 2 ^ 64 := by
              unfold growTo sizeShl1
              split <;> omega
            exact hkept (qbufRealloc_some hc fill (by omega) hlt).1 hw

end BufOp

/-- **The representation invariant survives a call if and only if the call neither cuts the block
off below the in head nor wraps.** -/
theorem qbuf_ordered_iff {c : BufOp} (h : q.Valid) (hc : c.Typed) :
    (∃ q', c.run q = some q' ∧ c.Keeps q q') ↔ c.Stays q := by
  -- an operation that copies nothing always leaves a buffer
  have hsome {p : QBuf} (hrun : c.run q = some p) :
      (∃ q', c.run q = some q' ∧ c.Keeps q q') ↔ c.Keeps q p := by
    rw [hrun]
    exact ⟨fun ⟨_, he, hk⟩ => Option.some.inj he ▸ hk, fun hk => ⟨p, rfl, hk⟩⟩
  cases c with
  | realloc len re => exact (hsome rfl).trans (BufOp.realloc_keeps_iff h hc.2)
  | collect policy =>
      obtain ⟨q', hq', hv, -, -⟩ := qbufCollect_spec h policy
      have hrun : (BufOp.collect policy).run q = some q' := by rw [BufOp.run, hq']; rfl
      exact (hsome hrun).trans ⟨fun _ => trivial, fun _ => .of_valid' hv not_false⟩
  | offsetInHead len => exact (hsome rfl).trans (BufOp.offsetInHead_keeps_iff h hc)
  | offsetOutHead len => exact (hsome rfl).trans (BufOp.offsetOutHead_keeps_iff h hc)
  | write buf re => exact BufOp.write_keeps_iff h

theorem qbuf_ordered_moved :
    ∃ q', (BufOp.offsetInHead 3).run (fullBuf 5) = some q' ∧
      (BufOp.offsetInHead 3).Keeps (fullBuf 5) q' :=
  (qbuf_ordered_iff (c := .offsetInHead 3) (fullBuf_valid (by decide))
    (show 3 < 2 ^ 64 by decide)).mpr (show 5 + 3 < 2 ^ 64 by decide)

/-- Shrinking a full buffer leaves the in head outside the block, and a head move that wraps takes
the in head back. -/
theorem qbuf_disordered :
    (¬ ∃ q', (BufOp.realloc 4 (some fun _ => 0)).run (fullBuf 10) = some q' ∧
      (BufOp.realloc 4 (some fun _ => 0)).Keeps (fullBuf 10) q') ∧
    ¬ ∃ q', (BufOp.offsetInHead (2 ^ 64 - 5)).run (fullBuf 10) = some q' ∧
      (BufOp.offsetInHead (2 ^ 64 - 5)).Keeps (fullBuf 10) q' := by
  constructor
  · rintro ⟨q', hrun, hk⟩
    cases hrun
    exact absurd hk.ordered.2 (by decide)
  · rintro ⟨q', hrun, hk⟩
    obtain rfl : _ = q' := Option.some.inj hrun
    have hstays := (BufOp.offsetInHead_keeps_iff (fullBuf_valid (by decide)) (by decide)).mp hk
    exact absurd hstays (show ¬ 10 + (2 ^ 64 - 5) < 2 ^ 64 by decide)

end LibZio
