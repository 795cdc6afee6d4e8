import LibZio.Qbuf.Basic

/-! # What the `qbuf` operations compute

`QBuf.Valid` is the representation invariant of a queue buffer, and `stored` its contents. For each
operation of `qbuf.c` this file gives one lemma that says what it returns and leaves behind on a
valid buffer; later files cite these and never unfold an operation again. Three result shapes cover
every operation that moves bytes: `compacted`, `appended`, and a buffer whose out head has moved. -/

namespace LibZio

/-- The representation invariant: the heads are in order and inside the block, whose length is the
recorded size, a `size_t`. -/
structure QBuf.Valid (q : QBuf) : Prop where
  out_le : q.offsetOut ≤ q.offsetIn
  in_le : q.offsetIn ≤ q.size
  size_eq : q.size = q.rawbuf.length
  size_lt : q.size < 2 ^ 64

/-- The stored bytes `rawbuf[offset_out .. offset_in)`. -/
def stored (q : QBuf) : List UInt8 := slice q.rawbuf q.offsetOut (q.offsetIn - q.offsetOut)

namespace QBuf.Valid

variable {q : QBuf}

/-- `qbuf_used` does not wrap. -/
theorem used_eq (h : q.Valid) : qbufUsed q = q.offsetIn - q.offsetOut := by
  have := h.out_le; have := h.in_le; have := h.size_lt
  exact sizeSub_of_le h.out_le (by omega)

/-- `qbuf_spare` does not wrap. -/
theorem spare_eq (h : q.Valid) : qbufSpare q = q.size - q.offsetIn :=
  sizeSub_of_le h.in_le h.size_lt

/-- `qbuf_used` counts the stored bytes. -/
theorem length_stored (h : q.Valid) : (stored q).length = qbufUsed q := by
  have := h.out_le; have := h.in_le; have := h.size_eq
  rw [stored, length_slice (by omega), h.used_eq]

/-- All stored bytes can be read at the out head. -/
theorem load_stored (h : q.Valid) :
    load q.rawbuf (qbufRawbufOutPos q) (qbufUsed q) = some (stored q) := by
  have := h.out_le; have := h.in_le; have := h.size_eq
  rw [load_eq_some (by simp only [qbufRawbufOutPos, h.used_eq]; omega), stored, h.used_eq]
  rfl

/-- The used part and the spare part fit in the block together. -/
theorem used_add_spare_le (h : q.Valid) : qbufUsed q + qbufSpare q ≤ q.size := by
  have := h.out_le; have := h.in_le
  rw [h.used_eq, h.spare_eq]; omega

/-- The used part is no larger than the block. -/
theorem used_le_size (h : q.Valid) : qbufUsed q ≤ q.size := by
  have := h.used_add_spare_le; omega

end QBuf.Valid

/-! ## Creation and reallocation -/

/-- A new buffer is valid and empty. -/
theorem qbufNew_spec {size : ℕ} {a b : Bool} {q : QBuf} (hs : size < 2 ^ 64)
    (h : qbufNew size a b = some q) :
    q.Valid ∧ stored q = [] ∧ q.size = (if size = 0 then RAW_SIZE else size) ∧
      q.offsetIn = 0 ∧ q.offsetOut = 0 := by
  cases a with
  | false => cases h
  | true =>
      cases b with
      | false => cases h
      | true =>
          obtain rfl : _ = q := Option.some.inj h
          refine ⟨⟨le_rfl, Nat.zero_le _, by simp [zeroed], ?_⟩, rfl, rfl, rfl, rfl⟩
          simp only [RAW_SIZE]
          split <;> omega

/-- The new block has the length asked for. -/
theorem length_resized (m : List UInt8) (len : ℕ) (fill : ℕ → UInt8) :
    (resized m len fill).length = len := by
  simp only [resized, List.length_append, List.length_take, List.length_map, List.length_range]
  omega

/-- Reallocation keeps every slice that lies in both blocks. -/
theorem slice_resized {m : List UInt8} {len p n : ℕ} (fill : ℕ → UInt8) (hm : p + n ≤ m.length)
    (hlen : p + n ≤ len) : slice (resized m len fill) p n = slice m p n := by
  rw [resized, slice_append_of_le (by simp; omega), slice_take hlen]

/-- A successful reallocation that keeps the in head inside the block keeps the contents. -/
theorem qbufRealloc_some {q : QBuf} (h : q.Valid) {len : ℕ} (fill : ℕ → UInt8)
    (hin : q.offsetIn ≤ len) (hlen : len < 2 ^ 64) :
    (qbufRealloc q len (some fill)).2.Valid ∧
      stored (qbufRealloc q len (some fill)).2 = stored q := by
  have := h.out_le; have := h.in_le; have := h.size_eq
  refine ⟨⟨h.out_le, hin, (length_resized _ _ _).symm, hlen⟩, ?_⟩
  simp only [qbufRealloc, stored]
  exact slice_resized fill (by omega) (by omega)

/-! ## Moving the heads -/

/-- `qbuf_offset_out_head` skips `len` bytes, or all of them when fewer are stored. -/
theorem qbufOffsetOutHead_eq {q : QBuf} (h : q.Valid) {len : ℕ}
    (hlen : q.offsetOut + len < 2 ^ 64) :
    (qbufOffsetOutHead q len).2 = { q with offsetOut := q.offsetOut + min len (qbufUsed q) } := by
  have := h.out_le
  rw [h.used_eq]
  simp only [qbufOffsetOutHead, sizeAdd_of_lt hlen]
  split
  · congr 1; omega
  · congr 1; omega

/-- Skipping keeps a buffer valid. -/
theorem QBuf.Valid.skip {q : QBuf} (h : q.Valid) {n : ℕ} (hn : n ≤ qbufUsed q) :
    ({ q with offsetOut := q.offsetOut + n } : QBuf).Valid := by
  have := h.out_le
  rw [h.used_eq] at hn
  exact ⟨by simp only; omega, h.in_le, h.size_eq, h.size_lt⟩

/-- Skipping drops the first stored bytes. -/
theorem stored_skip (q : QBuf) (n : ℕ) :
    stored { q with offsetOut := q.offsetOut + n } = (stored q).drop n := by
  simp only [stored, drop_slice]
  congr 1
  omega

/-- The bytes a skip passes over are the first stored bytes. -/
theorem slice_skipped {q : QBuf} (h : q.Valid) {n : ℕ} (hn : n ≤ qbufUsed q) :
    slice q.rawbuf q.offsetOut n = (stored q).take n := by
  rw [stored, take_slice, ← h.used_eq, Nat.min_eq_left hn]

/-- `q` with `bs` stored at the in head, which has moved behind them. -/
def appended (q : QBuf) (bs : List UInt8) : QBuf :=
  { q with rawbuf := splice q.rawbuf q.offsetIn bs, offsetIn := q.offsetIn + bs.length }

@[simp] theorem appended_size (q : QBuf) (bs : List UInt8) : (appended q bs).size = q.size := rfl

/-- Bytes that fit in the spare space can be stored at the in head. -/
theorem store_inPos {q : QBuf} (h : q.Valid) {bs : List UInt8} (hbs : bs.length ≤ qbufSpare q) :
    store q.rawbuf (qbufRawbufInPos q) bs = some (splice q.rawbuf q.offsetIn bs) := by
  have := h.in_le; have := h.size_eq
  rw [h.spare_eq] at hbs
  exact store_eq_some (by simp only [qbufRawbufInPos]; omega)

/-- `qbuf_offset_in_head` behind bytes just stored in the spare space gives `appended`. -/
theorem qbufOffsetInHead_appended {q : QBuf} (h : q.Valid) {bs : List UInt8}
    (hbs : bs.length ≤ qbufSpare q) :
    (qbufOffsetInHead { q with rawbuf := splice q.rawbuf q.offsetIn bs } bs.length).2
      = appended q bs := by
  have := h.in_le; have := h.size_lt
  rw [h.spare_eq] at hbs
  simp only [qbufOffsetInHead, sizeAdd_of_lt (show q.offsetIn + bs.length < 2 ^ 64 by omega)]
  rw [if_neg (by omega)]
  rfl

/-- Appending within the spare space keeps a buffer valid. -/
theorem QBuf.Valid.append {q : QBuf} (h : q.Valid) {bs : List UInt8}
    (hbs : bs.length ≤ qbufSpare q) : (appended q bs).Valid := by
  have := h.out_le; have := h.in_le; have := h.size_eq
  rw [h.spare_eq] at hbs
  refine ⟨by simp only [appended]; omega, by simp only [appended]; omega, ?_, h.size_lt⟩
  simp only [appended]
  rw [length_splice (by omega), h.size_eq]

/-- Appending adds the bytes behind those already stored. -/
theorem stored_appended {q : QBuf} (h : q.Valid) (bs : List UInt8) :
    stored (appended q bs) = stored q ++ bs := by
  have := h.out_le; have := h.in_le; have := h.size_eq
  simp only [stored, appended]
  have hsplit : q.offsetIn + bs.length - q.offsetOut = (q.offsetIn - q.offsetOut) + bs.length := by
    omega
  have hpos : q.offsetOut + (q.offsetIn - q.offsetOut) = q.offsetIn := by omega
  rw [hsplit, ← slice_append_slice, hpos, slice_splice_self (by omega),
    slice_splice_of_le (by omega) (by omega)]

/-! ## Compaction -/

/-- `q` with its stored bytes moved to the front of the block. -/
def compacted (q : QBuf) : QBuf :=
  { q with rawbuf := splice q.rawbuf 0 (stored q), offsetIn := qbufUsed q, offsetOut := 0 }

/-- `q` with both heads reset, as an empty buffer is. -/
def reset (q : QBuf) : QBuf := { q with offsetIn := 0, offsetOut := 0 }

/-- Compaction keeps a buffer valid. -/
theorem QBuf.Valid.compact {q : QBuf} (h : q.Valid) : (compacted q).Valid := by
  have := h.used_le_size; have := h.size_eq
  refine ⟨Nat.zero_le _, h.used_le_size, ?_, h.size_lt⟩
  simp only [compacted]
  rw [length_splice (by rw [h.length_stored]; omega), h.size_eq]

/-- Compaction keeps the contents. -/
theorem stored_compacted {q : QBuf} (h : q.Valid) : stored (compacted q) = stored q := by
  have := h.used_le_size
  simp only [stored, compacted, Nat.sub_zero]
  have hlen : qbufUsed q = (stored q).length := h.length_stored.symm
  rw [hlen]
  exact slice_splice_self (Nat.zero_le _)

/-- Resetting the heads keeps a buffer valid. -/
theorem QBuf.Valid.reset {q : QBuf} (h : q.Valid) : (reset q).Valid :=
  ⟨le_rfl, Nat.zero_le _, h.size_eq, h.size_lt⟩

/-- A buffer with its heads reset is empty. -/
@[simp] theorem stored_reset (q : QBuf) : stored (reset q) = [] := by simp [stored, LibZio.reset]

/-- A buffer without used bytes is empty. -/
theorem stored_eq_nil {q : QBuf} (h : q.Valid) (h0 : qbufUsed q = 0) : stored q = [] :=
  List.eq_nil_of_length_eq_zero (by rw [h.length_stored, h0])

/-- **What `qbuf_collect` does**: it resets an empty buffer, compacts one the policy asks to
compact, and leaves any other alone. -/
theorem qbufCollect_cases {q : QBuf} (h : q.Valid) (policy : BitVec 32) :
    ∃ q', qbufCollect q policy = some (qbufSpare q', q') ∧
      (qbufUsed q = 0 ∧ q' = reset q ∨
        qbufUsed q ≠ 0 ∧ policyDo q policy = true ∧ q' = compacted q ∨
        qbufUsed q ≠ 0 ∧ policyDo q policy = false ∧ q' = q) := by
  have := h.out_le; have := h.in_le; have := h.size_eq
  have hused := h.used_eq
  by_cases h0 : qbufUsed q = 0
  · exact ⟨reset q, by simp only [qbufCollect, if_pos h0, LibZio.reset]; rfl, .inl ⟨h0, rfl⟩⟩
  · cases hp : policyDo q policy with
    | true =>
        refine ⟨compacted q, ?_, .inr (.inl ⟨h0, rfl, rfl⟩)⟩
        have hload := h.load_stored
        have hstore : store q.rawbuf 0 (stored q) = some (splice q.rawbuf 0 (stored q)) :=
          store_eq_some (by rw [h.length_stored]; omega)
        simp only [qbufCollect, if_neg h0, hp, if_true, hload, hstore, Option.bind_eq_bind,
          Option.bind_some]
        rfl
    | false =>
        refine ⟨q, ?_, .inr (.inr ⟨h0, rfl, rfl⟩)⟩
        simp only [qbufCollect, if_neg h0, hp]
        rfl

/-- `qbuf_collect` keeps the buffer valid, its contents and its size, for every policy. -/
theorem qbufCollect_spec {q : QBuf} (h : q.Valid) (policy : BitVec 32) :
    ∃ q', qbufCollect q policy = some (qbufSpare q', q') ∧ q'.Valid ∧ stored q' = stored q ∧
      q'.size = q.size := by
  obtain ⟨q', hq', ⟨h0, rfl⟩ | ⟨-, -, rfl⟩ | ⟨-, -, rfl⟩⟩ := qbufCollect_cases h policy
  · exact ⟨_, hq', h.reset, by rw [stored_reset, stored_eq_nil h h0], rfl⟩
  · exact ⟨_, hq', h.compact, stored_compacted h, rfl⟩
  · exact ⟨_, hq', h, rfl, rfl⟩

/-- Collecting without a policy puts all free space behind the contents. -/
theorem qbufCollect_none {q : QBuf} (h : q.Valid) :
    ∃ q', qbufCollect q QBUF_COLLECT_POLICY_NONE = some (qbufSpare q', q') ∧ q'.Valid ∧
      stored q' = stored q ∧ q'.size = q.size ∧ q'.offsetIn = qbufUsed q ∧ q'.offsetOut = 0 := by
  obtain ⟨q', hq', ⟨h0, rfl⟩ | ⟨-, -, rfl⟩ | ⟨-, hp, -⟩⟩ :=
    qbufCollect_cases h QBUF_COLLECT_POLICY_NONE
  · exact ⟨_, hq', h.reset, by rw [stored_reset, stored_eq_nil h h0], rfl, h0.symm, rfl⟩
  · exact ⟨_, hq', h.compact, stored_compacted h, rfl, rfl, rfl⟩
  · simp [policyDo, hasFlag, QBUF_COLLECT_POLICY_NONE] at hp

/-- Collecting with little spare space puts all free space behind the contents, or leaves a buffer
alone of which more than a quarter is spare. -/
theorem qbufCollect_lessSpare {q : QBuf} (h : q.Valid) :
    ∃ q', qbufCollect q QBUF_COLLECT_POLICY_LESS_SPARE = some (qbufSpare q', q') ∧ q'.Valid ∧
      stored q' = stored q ∧ q'.size = q.size ∧
      (q'.offsetOut = 0 ∧ q'.offsetIn = qbufUsed q ∨ q' = q ∧ q.size / 4 < qbufSpare q) := by
  obtain ⟨q', hq', ⟨h0, rfl⟩ | ⟨-, -, rfl⟩ | ⟨-, hp, rfl⟩⟩ :=
    qbufCollect_cases h QBUF_COLLECT_POLICY_LESS_SPARE
  · exact ⟨_, hq', h.reset, by rw [stored_reset, stored_eq_nil h h0], rfl, .inl ⟨rfl, h0.symm⟩⟩
  · exact ⟨_, hq', h.compact, stored_compacted h, rfl, .inl ⟨rfl, rfl⟩⟩
  · refine ⟨_, hq', h, rfl, rfl, .inr ⟨rfl, ?_⟩⟩
    by_contra hno
    have hless : hasFlag QBUF_COLLECT_POLICY_LESS_SPARE QBUF_COLLECT_POLICY_LESS_SPARE = true := by
      decide
    have hgarbage :
        hasFlag QBUF_COLLECT_POLICY_LESS_SPARE QBUF_COLLECT_POLICY_LARGE_GARBAGE = false := by
      decide
    simp [policyDo, hless, hgarbage, sizeShr2, hno] at hp

/-! ## Copying out and in -/

/-- `qbuf_peek` copies out the first stored bytes. -/
theorem qbufPeek_eq {q : QBuf} (h : q.Valid) (len : ℕ) :
    qbufPeek q len = some (min len (qbufUsed q), (stored q).take len) := by
  have := h.out_le; have := h.in_le; have := h.size_eq
  have hcount : (if len ≤ qbufUsed q then len else qbufUsed q) = min len (qbufUsed q) := rfl
  have hused := h.used_eq
  have hload : load q.rawbuf (qbufRawbufOutPos q) (min len (qbufUsed q))
      = some ((stored q).take len) := by
    rw [load_eq_some (by simp only [qbufRawbufOutPos]; omega), stored, take_slice, ← hused]
    rfl
  simp only [qbufPeek, hcount, hload, Option.bind_eq_bind, Option.bind_some]
  rfl

/-- `qbuf_read` hands out the first stored bytes and skips them, while their number fits in the
`int` it goes through. -/
theorem qbufRead_eq {q : QBuf} (h : q.Valid) {len : ℕ} (hn : min len (qbufUsed q) < 2 ^ 31) :
    qbufRead q len = some (min len (qbufUsed q), (stored q).take len,
      { q with offsetOut := q.offsetOut + min len (qbufUsed q) }) := by
  have := h.out_le; have := h.in_le; have := h.size_lt
  have hused := h.used_eq
  have hround : sizeOfInt (intOfSize (min len (qbufUsed q))) = min len (qbufUsed q) := by
    rw [intOfSize_of_lt hn, sizeOfInt_natCast hn]
  have hhead := qbufOffsetOutHead_eq h (show q.offsetOut + min len (qbufUsed q) < 2 ^ 64 by omega)
  rw [Nat.min_eq_left (Nat.min_le_right _ _)] at hhead
  simp only [qbufRead, qbufPeek_eq h, Option.bind_eq_bind, Option.bind_some, hround, hhead]
  rfl

/-- The last step of `qbuf_write`: store what fits behind the contents. -/
def writeTail (q : QBuf) (buf : List UInt8) : Option (ℕ × QBuf) := do
  let lenCanIn := if buf.length ≤ qbufSpare q then buf.length else qbufSpare q
  let rawbuf ← store q.rawbuf (qbufRawbufInPos q) (buf.take lenCanIn)
  let self := (qbufOffsetInHead { q with rawbuf := rawbuf } lenCanIn).2
  return (lenCanIn, self)

/-- On a valid buffer the last step appends what fits. -/
theorem writeTail_eq {q : QBuf} (h : q.Valid) (buf : List UInt8) :
    writeTail q buf
      = some (min buf.length (qbufSpare q), appended q (buf.take (qbufSpare q))) := by
  have hcount : (if buf.length ≤ qbufSpare q then buf.length else qbufSpare q)
      = min buf.length (qbufSpare q) := rfl
  have htake : buf.take (min buf.length (qbufSpare q)) = buf.take (qbufSpare q) := by
    rw [Nat.min_comm, ← List.take_take, List.take_length]
  have hlen : (buf.take (qbufSpare q)).length = min buf.length (qbufSpare q) := by
    rw [List.length_take, Nat.min_comm]
  have hfit : (buf.take (qbufSpare q)).length ≤ qbufSpare q := by
    rw [hlen]; exact Nat.min_le_right _ _
  simp only [writeTail, hcount, htake, store_inPos h hfit, Option.bind_eq_bind, Option.bind_some]
  rw [← hlen, qbufOffsetInHead_appended h hfit]
  rfl

/-- The length `qbuf_write` asks `realloc` for. -/
def growTo (size len : ℕ) : ℕ := if size > len then sizeShl1 size else sizeShl1 len

/-- One doubling makes room for everything. -/
theorem growTo_bounds {size len : ℕ} (hs : size < 2 ^ 63) (hl : len < 2 ^ 63) :
    size + len ≤ growTo size len ∧ growTo size len < 2 ^ 64 := by
  unfold growTo
  split
  · rw [sizeShl1_of_lt hs]; omega
  · rw [sizeShl1_of_lt hl]; omega

/-- The buffer `qbuf_write` stores into once the free space has been collected and, if that was not
enough, a reallocation has been tried. -/
structure MadeRoom (q : QBuf) (len : ℕ) (re : Realloc) (q' : QBuf) : Prop where
  valid : q'.Valid
  stored_eq : stored q' = stored q
  /-- The block grows exactly when collecting is not enough and `realloc` succeeds. -/
  size_eq : q'.size = if qbufUsed q + len ≤ q.size ∨ re = none then q.size else growTo q.size len
  /-- Everything fits, unless `realloc` was needed and failed. -/
  spare : qbufUsed q + len ≤ q.size ∨ re ≠ none → len ≤ qbufSpare q'
  /-- After a failed `realloc` all free space is behind the contents. -/
  spare_failed : ¬ (qbufUsed q + len ≤ q.size) → re = none → qbufSpare q' = q.size - qbufUsed q

/-- The ways of `qbuf_write`, for every length: the bytes fit into the block, perhaps after the free
space has been collected, or the collected block is reallocated. -/
theorem qbufWrite_cases {q : QBuf} (h : q.Valid) (buf : List UInt8) (re : Realloc) :
    (∃ m : QBuf, m.Valid ∧ stored m = stored q ∧ m.size = q.size ∧
      qbufUsed q + buf.length ≤ q.size ∧ buf.length ≤ qbufSpare m ∧
      qbufWrite q buf re = writeTail m buf) ∨
    ∃ c : QBuf, c.Valid ∧ stored c = stored q ∧ c.size = q.size ∧ c.offsetIn = qbufUsed q ∧
      ¬ qbufUsed q + buf.length ≤ q.size ∧
      qbufWrite q buf re = writeTail (qbufRealloc c (growTo q.size buf.length) re).2 buf := by
  have hfree := h.used_add_spare_le
  have hsize := h.used_le_size
  obtain ⟨c, hc, hcv, hcs, hcz, hcin, -⟩ := qbufCollect_none h
  have hcspare : qbufSpare c = q.size - qbufUsed q := by rw [hcv.spare_eq, hcz, hcin]
  by_cases h1 : buf.length > qbufSpare q
  · by_cases h2 : buf.length > qbufSpare c
    -- after the compaction what is spare is what is not used, so that the block is too small
    · refine .inr ⟨c, hcv, hcs, hcz, hcin, by omega, ?_⟩
      rw [← hcz]
      simp only [qbufWrite, if_pos h1, hc, Functor.map, Option.map, Option.bind_eq_bind,
        Option.bind_some, if_pos h2]
      rfl
    -- the compaction alone makes room
    · refine .inl ⟨c, hcv, hcs, hcz, by omega, by omega, ?_⟩
      simp only [qbufWrite, if_pos h1, hc, Functor.map, Option.map, Option.bind_eq_bind,
        Option.bind_some, if_neg h2]
      rfl
  · refine .inl ⟨q, h, rfl, rfl, by omega, by omega, ?_⟩
    simp only [qbufWrite, if_neg h1, Option.bind_eq_bind, Option.bind_some]
    rfl

/-- `qbuf_write` first makes room and then stores what fits. -/
theorem qbufWrite_makesRoom {q : QBuf} (h : q.Valid) (hs : q.size < 2 ^ 63) {buf : List UInt8}
    (hl : buf.length < 2 ^ 63) (re : Realloc) :
    ∃ q', MadeRoom q buf.length re q' ∧
      qbufWrite q buf re
        = some (min buf.length (qbufSpare q'), appended q' (buf.take (qbufSpare q'))) := by
  obtain ⟨m, hmv, hms, hmz, hfit, hspare, hw⟩ | ⟨c, hcv, hcs, hcz, hcin, hno, hw⟩ :=
    qbufWrite_cases h buf re
  · refine ⟨m, ⟨hmv, hms, by rw [hmz, if_pos (.inl hfit)], fun _ => hspare,
      fun hno => absurd hfit hno⟩, ?_⟩
    rw [hw, writeTail_eq hmv]
  · cases re with
    | none =>
        refine ⟨c, ⟨hcv, hcs, by rw [hcz, if_pos (.inr rfl)], ?_, fun _ _ => ?_⟩, ?_⟩
        · rintro (hfit | hne)
          · exact absurd hfit hno
          · exact absurd rfl hne
        · rw [hcv.spare_eq, hcz, hcin]
        · rw [hw]
          exact writeTail_eq hcv buf
    | some fill =>
        have hgrow := growTo_bounds hs hl
        have hused := h.used_le_size
        have hcl : c.offsetIn ≤ growTo q.size buf.length := by rw [hcin]; omega
        obtain ⟨hgv, hgs⟩ := qbufRealloc_some hcv fill hcl hgrow.2
        have hgspare : qbufSpare (qbufRealloc c (growTo q.size buf.length) (some fill)).2
            = growTo q.size buf.length - c.offsetIn := hgv.spare_eq
        refine ⟨_, ⟨hgv, hgs.trans hcs, ?_, fun _ => ?_, ?_⟩, ?_⟩
        · rw [if_neg (by simp [hno])]
          rfl
        · rw [hgspare, hcin]; omega
        · intro _ hre; cases hre
        · rw [hw, writeTail_eq hgv]

/-- **What `qbuf_write` does**: it accepts a prefix of the bytes, behind those already stored. -/
theorem qbufWrite_spec {q : QBuf} (h : q.Valid) (hs : q.size < 2 ^ 63) {buf : List UInt8}
    (hl : buf.length < 2 ^ 63) (re : Realloc) :
    ∃ r q', qbufWrite q buf re = some (r, q') ∧ r ≤ buf.length ∧ q'.Valid ∧
      stored q' = stored q ++ buf.take r ∧
      q'.size = if qbufUsed q + buf.length ≤ q.size ∨ re = none then q.size
        else growTo q.size buf.length := by
  obtain ⟨m, hm, hw⟩ := qbufWrite_makesRoom h hs hl re
  have hfit : (buf.take (qbufSpare m)).length ≤ qbufSpare m := List.length_take_le _ _
  refine ⟨_, _, hw, Nat.min_le_left _ _, hm.valid.append hfit, ?_, hm.size_eq⟩
  have htake : buf.take (min buf.length (qbufSpare m)) = buf.take (qbufSpare m) := by
    rw [Nat.min_comm, ← List.take_take, List.take_length]
  rw [stored_appended hm.valid, hm.stored_eq, htake]

end LibZio
