import LibZio.Qbuf.Spec

/-! # When `qbuf_write` grows the buffer

`qbuf_write` decides three times: whether the spare space is enough, whether it is after compaction,
and which of two lengths to ask `realloc` for. `qbufWriteAsked` is `qbuf_write` with the length it
asked for made visible. On a valid buffer all three decisions come down to one comparison of the
bytes to be stored with the size, and one doubling always suffices. -/

namespace LibZio

variable {q q' : QBuf} {buf : List UInt8} {re : Realloc}

/-- `qbuf_write`, with the length it passed to `realloc` if it called it. -/
def qbufWriteAsked (self : QBuf) (buf : List UInt8) (re : Realloc) :
    Option (Option ℕ × ℕ × QBuf) := do
  let len := buf.length
  let self ←
    if len > qbufSpare self then (·.2) <$> qbufCollect self QBUF_COLLECT_POLICY_NONE
    else some self
  let asked :=
    if len > qbufSpare self then some (if self.size > len then sizeShl1 self.size else sizeShl1 len)
    else none
  let self :=
    match asked with
    | some newLen => (qbufRealloc self newLen re).2
    | none => self
  let lenCanIn := if len ≤ qbufSpare self then len else qbufSpare self
  let rawbuf ← store self.rawbuf (qbufRawbufInPos self) (buf.take lenCanIn)
  let self := (qbufOffsetInHead { self with rawbuf := rawbuf } lenCanIn).2
  return (asked, lenCanIn, self)

/-- What `qbuf_write` asks of `realloc` when a buffer of the size, with `used` bytes stored, is to
take `len` bytes. -/
def askFor (size used len : ℕ) : Option ℕ :=
  if used + len ≤ size then none else some (growTo size len)

/-- Forgetting the length asked for gives `qbuf_write`. -/
theorem qbufWriteAsked_snd (self : QBuf) (buf : List UInt8) (re : Realloc) :
    (·.2) <$> qbufWriteAsked self buf re = qbufWrite self buf re := by
  rw [qbufWriteAsked, qbufWrite]
  by_cases h : buf.length > qbufSpare self
  · rw [if_pos h, if_pos h]
    simp only [map_bind]
    -- the compacted buffer is grown by both, or by neither
    refine bind_congr fun c => ?_
    by_cases h' : buf.length > qbufSpare c
    · simp only [if_pos h']
      rfl
    · simp only [if_neg h']
      rfl
  · rw [if_neg h, if_neg h]
    simp only [Option.bind_eq_bind, Option.bind_some, if_neg h, Option.map_eq_map, Option.map_bind]
    rfl

/-- **What is asked of `realloc`** depends on the size and the number of bytes stored alone. -/
theorem qbufWriteAsked_fst {asked : Option ℕ} {r : ℕ} (h : q.Valid)
    (hw : qbufWriteAsked q buf re = some (asked, r, q')) :
    asked = askFor q.size (qbufUsed q) buf.length := by
  have hfree := h.used_add_spare_le
  have hsize := h.used_le_size
  obtain ⟨c, hc, hcv, -, hcz, hcin, -⟩ := qbufCollect_none h
  have hcspare : qbufSpare c = q.size - qbufUsed q := by rw [hcv.spare_eq, hcz, hcin]
  unfold askFor
  unfold qbufWriteAsked at hw
  by_cases h1 : buf.length > qbufSpare q
  · rw [if_pos h1, hc] at hw
    obtain ⟨collected, hcollected, hw⟩ := Option.bind_eq_some_iff.mp hw
    cases hcollected
    obtain ⟨raw, -, hw⟩ := Option.bind_eq_some_iff.mp hw
    cases hw
    dsimp only
    by_cases h2 : buf.length > qbufSpare c
    · rw [if_pos h2, hcz, if_neg (by omega : ¬ qbufUsed q + buf.length ≤ q.size), growTo]
    · rw [if_neg h2, if_pos (by omega)]
  · rw [if_neg h1] at hw
    obtain ⟨collected, hcollected, hw⟩ := Option.bind_eq_some_iff.mp hw
    cases hcollected
    obtain ⟨raw, -, hw⟩ := Option.bind_eq_some_iff.mp hw
    cases hw
    rw [if_neg h1, if_pos (by omega)]

/-- How many bytes `qbuf_write` takes: all of them, or as many as the block holds when it cannot be
grown. -/
def takes (size used len : ℕ) (grows : Bool) : ℕ :=
  if used + len ≤ size ∨ grows then len else size - used

/-- **What `qbuf_write` does, in closed form**, by the size and the contents alone. -/
theorem qbufWriteAsked_eq (h : q.Valid) (hs : q.size < 2 ^ 63) (hl : buf.length < 2 ^ 63)
    (re : Realloc) :
    ∃ q', qbufWriteAsked q buf re = some (askFor q.size (qbufUsed q) buf.length,
        takes q.size (qbufUsed q) buf.length re.isSome, q') ∧
      q'.Valid ∧ stored q' = stored q ++ buf.take (takes q.size (qbufUsed q) buf.length re.isSome) ∧
      q'.size =
        if re.isSome then (askFor q.size (qbufUsed q) buf.length).getD q.size else q.size := by
  obtain ⟨m, hm, hw⟩ := qbufWrite_makesRoom h hs hl re
  have hsize := h.used_le_size
  have hfit : (buf.take (qbufSpare m)).length ≤ qbufSpare m := List.length_take_le _ _
  have htake : buf.take (min buf.length (qbufSpare m)) = buf.take (qbufSpare m) := by
    rw [Nat.min_comm, ← List.take_take, List.take_length]
  have htakes : min buf.length (qbufSpare m) = takes q.size (qbufUsed q) buf.length re.isSome := by
    unfold takes
    by_cases hroom : qbufUsed q + buf.length ≤ q.size ∨ re.isSome = true
    · rw [if_pos hroom]
      refine Nat.min_eq_left (hm.spare (hroom.imp_right fun hre => ?_))
      rintro rfl
      cases hre
    · rw [if_neg hroom]
      rw [not_or] at hroom
      have hre : re = none := by simpa using hroom.2
      rw [hm.spare_failed hroom.1 hre]
      omega
  rw [← qbufWriteAsked_snd] at hw
  obtain ⟨⟨asked, r, q'⟩, hw, hpair⟩ := Option.map_eq_some_iff.mp hw
  obtain ⟨rfl, rfl⟩ := Prod.mk.inj hpair
  have hasked := qbufWriteAsked_fst h hw
  refine ⟨_, by rw [hw, hasked, htakes], hm.valid.append hfit, ?_, ?_⟩
  · rw [stored_appended hm.valid, hm.stored_eq, ← htakes, htake]
  · rw [appended_size, hm.size_eq, askFor]
    cases re with
    | none => rw [if_pos (.inr rfl)]; rfl
    | some fill =>
        by_cases hroom : qbufUsed q + buf.length ≤ q.size
        · rw [if_pos (.inl hroom), if_pos hroom]; rfl
        · rw [if_neg (by simp [hroom]), if_neg hroom]; rfl

/-- **Exact acceptance and growth of `qbuf_write`.** It calls `realloc` exactly when the free space
is too small; it takes everything unless `realloc` fails, and then exactly the free space; and a
block that grew is at most twice as large as its contents. -/
theorem qbufWrite_exact (h : q.Valid) (hs : q.size < 2 ^ 63) (hl : buf.length < 2 ^ 63)
    (re : Realloc) :
    ∃ asked r q', qbufWriteAsked q buf re = some (asked, r, q') ∧
      qbufWrite q buf re = some (r, q') ∧ (asked.isSome ↔ buf.length > q.size - qbufUsed q) ∧
      (asked = none ∨ re ≠ none → r = buf.length) ∧
      (asked ≠ none → re = none → r = q.size - qbufUsed q ∧ q'.size = q.size) ∧
      (asked ≠ none → re ≠ none → asked = some q'.size ∧ q'.size ≤ 2 * qbufUsed q') := by
  obtain ⟨q', hw, hv, hst, hsz⟩ := qbufWriteAsked_eq h hs hl re
  have hsize := h.used_le_size
  have hbounds := growTo_bounds hs hl
  refine ⟨_, _, q', hw, by rw [← qbufWriteAsked_snd, hw]; rfl, ?_, ?_, ?_, ?_⟩
  · unfold askFor
    by_cases hroom : qbufUsed q + buf.length ≤ q.size
    · rw [if_pos hroom]; simp; omega
    · rw [if_neg hroom]; simp; omega
  · unfold askFor takes
    rintro (hnone | hre)
    · by_cases hroom : qbufUsed q + buf.length ≤ q.size
      · rw [if_pos (.inl hroom)]
      · rw [if_neg hroom] at hnone; cases hnone
    · rw [if_pos (.inr (Option.isSome_iff_ne_none.mpr hre))]
  · rintro hasked rfl
    have hroom : ¬ (qbufUsed q + buf.length ≤ q.size) := fun hroom => hasked (if_pos hroom)
    exact ⟨if_neg (by simp [hroom]), hsz⟩
  · intro hasked hre
    have hroom : ¬ (qbufUsed q + buf.length ≤ q.size) := fun hroom => hasked (if_pos hroom)
    have hsome : re.isSome = true := Option.isSome_iff_ne_none.mpr hre
    rw [hsome, if_pos rfl, askFor, if_neg hroom, Option.getD_some] at hsz
    have hused : qbufUsed q' = qbufUsed q + buf.length := by
      rw [← hv.length_stored, hst, List.length_append, h.length_stored, takes,
        if_pos (.inr hsome), List.take_length]
    refine ⟨by rw [askFor, if_neg hroom, hsz], ?_⟩
    rw [hsz, hused, growTo]
    split
    · rw [sizeShl1_of_lt hs]; omega
    · rw [sizeShl1_of_lt hl]; omega

/-- A full buffer of four bytes that grows to take three more. -/
theorem qbufWrite_exact_grows : ∃ asked r q',
    qbufWriteAsked ⟨[1, 2, 3, 4], 4, 4, 1⟩ [5, 6, 7] (some fun _ => 0) = some (asked, r, q') ∧
      asked = some q'.size ∧ r = 3 ∧ q'.size ≤ 2 * qbufUsed q' := by
  obtain ⟨asked, r, q', hw, -, hiff, hall, -, hgrown⟩ :=
    @qbufWrite_exact ⟨[1, 2, 3, 4], 4, 4, 1⟩ [5, 6, 7]
      ⟨by decide, by decide, rfl, by decide⟩ (by decide) (by decide) (some fun _ => 0)
  have hasked : asked ≠ none := Option.isSome_iff_ne_none.mp (hiff.mpr (by decide))
  obtain ⟨hsize, htwice⟩ := hgrown hasked (by simp)
  exact ⟨asked, r, q', hw, hsize, hall (.inr (by simp)), htwice⟩

end LibZio
