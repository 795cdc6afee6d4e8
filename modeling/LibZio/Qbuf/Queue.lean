import LibZio.Qbuf.Spec
import LibZio.Foundation.Fifo

/-! # `qbuf` is a byte queue

A `QOp` is one call a program makes on a queue buffer, together with what the allocator does, and
`QOp.exec` is that call: it runs the operation of `qbuf.c` and reports the bytes the buffer accepted
and the bytes it gave up. `QRun` collects these reports over a whole run. The run refines a `Fifo`:
at every point the buffer holds the pending items of a channel into which exactly the accepted
bytes were pushed and from which exactly the bytes given up were popped. -/

namespace LibZio

/-- One call on a queue buffer, with the outcome of the reallocation it may ask for. -/
inductive QOp
  /-- `qbuf_write`. -/
  | write (buf : List UInt8) (re : Realloc)
  /-- `qbuf_read`. -/
  | read (len : ℕ)
  /-- `qbuf_peek`. -/
  | peek (len : ℕ)
  /-- `qbuf_collect`. -/
  | collect (policy : BitVec 32)
  /-- `qbuf_offset_out_head`. -/
  | offsetOutHead (len : ℕ)
  /-- Bytes stored at `qbuf_rawbuf_in_pos`, then `qbuf_offset_in_head` by their number. -/
  | rawAppend (bytes : List UInt8)
  /-- `qbuf_realloc`. -/
  | realloc (len : ℕ) (re : Realloc)

/-- What one call moved: the bytes the buffer accepted, and the bytes it handed out or skipped. -/
structure Moved where
  accepted : List UInt8 := []
  handed : List UInt8 := []
  deriving DecidableEq

/-- The caller's side of the interface: lengths are below `2 ^ 31`, a raw append stays within the
spare space, and a reallocation keeps the in head inside a non-empty block. -/
def QOp.Legal (q : QBuf) : QOp → Prop
  | .write buf _ => buf.length < 2 ^ 31
  | .read len => len < 2 ^ 31
  | .peek len => len < 2 ^ 31
  | .collect _ => True
  | .offsetOutHead len => len < 2 ^ 31
  | .rawAppend bytes => bytes.length ≤ qbufSpare q ∧ bytes.length < 2 ^ 31
  | .realloc len _ => len ≠ 0 ∧ q.offsetIn ≤ len ∧ len < 2 ^ 31

/-- Legality can be evaluated. -/
instance (q : QBuf) (op : QOp) : Decidable (op.Legal q) :=
  match op with
  | .write buf _ => inferInstanceAs (Decidable (buf.length < 2 ^ 31))
  | .read len => inferInstanceAs (Decidable (len < 2 ^ 31))
  | .peek len => inferInstanceAs (Decidable (len < 2 ^ 31))
  | .collect _ => inferInstanceAs (Decidable True)
  | .offsetOutHead len => inferInstanceAs (Decidable (len < 2 ^ 31))
  | .rawAppend bytes =>
    inferInstanceAs (Decidable (bytes.length ≤ qbufSpare q ∧ bytes.length < 2 ^ 31))
  | .realloc len _ => inferInstanceAs (Decidable (len ≠ 0 ∧ q.offsetIn ≤ len ∧ len < 2 ^ 31))

/-- Make one call. A write accepts the prefix whose length it returns; a skip gives up the bytes
between the old and the new out head. -/
def QOp.exec (q : QBuf) : QOp → Option (Moved × QBuf)
  | .write buf re => do
      let (r, q') ← qbufWrite q buf re
      return ({ accepted := buf.take r }, q')
  | .read len => do
      let (_, bytes, q') ← qbufRead q len
      return ({ handed := bytes }, q')
  | .peek len => do
      let _ ← qbufPeek q len
      return ({}, q)
  | .collect policy => do
      let (_, q') ← qbufCollect q policy
      return ({}, q')
  | .offsetOutHead len => do
      let q' := (qbufOffsetOutHead q len).2
      let skipped ← load q.rawbuf q.offsetOut (q'.offsetOut - q.offsetOut)
      return ({ handed := skipped }, q')
  | .rawAppend bytes => do
      let rawbuf ← store q.rawbuf (qbufRawbufInPos q) bytes
      return ({ accepted := bytes }, (qbufOffsetInHead { q with rawbuf := rawbuf } bytes.length).2)
  | .realloc len re => some ({}, (qbufRealloc q len re).2)

/-- `QRun size q accepted handed`: the buffer `q` is reached from `qbuf_new(size)` by legal calls
that keep fewer than `2 ^ 31` bytes stored, during which `accepted` went in and `handed` came
out. -/
inductive QRun (size : ℕ) : QBuf → List UInt8 → List UInt8 → Prop
  | new {q : QBuf} (h : qbufNew size true true = some q) : QRun size q [] []
  | call {q q' : QBuf} {accepted handed : List UInt8} {moved : Moved} (op : QOp)
      (run : QRun size q accepted handed) (legal : op.Legal q)
      (exec : op.exec q = some (moved, q')) (bound : qbufUsed q' < 2 ^ 31) :
      QRun size q' (accepted ++ moved.accepted) (handed ++ moved.handed)

/-! ## One call -/

/-- What a run keeps: a valid buffer with less than `2 ^ 31` bytes stored, of a size that can still
be doubled. -/
structure QueueInv (q : QBuf) : Prop where
  valid : q.Valid
  used_lt : qbufUsed q < 2 ^ 31
  size_lt : q.size < 2 ^ 32

/-- `f` is the history of the bytes that went through `q`. -/
def Holds (q : QBuf) (f : Fifo UInt8) : Prop := stored q = f.pending

/-- The advance of the channel that a call amounts to. -/
def Moved.advance (m : Moved) (f : Fifo UInt8) : Fifo UInt8 :=
  (f.push m.accepted).pop m.handed.length

/-- **One call simulates one advance of the channel.** A legal call has defined behaviour, keeps the
buffer valid, and turns the stored bytes `s` into `s'` with `handed ++ s' = s ++ accepted`; the
block only grows when what is then stored takes more than half of it. -/
theorem QOp.exec_spec {q : QBuf} (hq : QueueInv q) {op : QOp} (legal : op.Legal q) :
    ∃ moved q', op.exec q = some (moved, q') ∧ q'.Valid ∧
      moved.handed ++ stored q' = stored q ++ moved.accepted ∧
      (q'.size < 2 ^ 32 ∨ 2 ^ 31 ≤ qbufUsed q') := by
  obtain ⟨h, hused, hsize⟩ := hq
  have := h.out_le; have := h.in_le
  cases op with
  | write buf re =>
      have hlen : buf.length < 2 ^ 31 := legal
      obtain ⟨m, hm, hw⟩ := qbufWrite_makesRoom h (by omega) (show buf.length < 2 ^ 63 by omega) re
      obtain ⟨r, q', hw', -, hv, hst, hsz⟩ :=
        qbufWrite_spec h (by omega) (show buf.length < 2 ^ 63 by omega) re
      refine ⟨{ accepted := buf.take r }, q', by simp only [QOp.exec, hw']; rfl, hv, hst, ?_⟩
      rw [hsz]
      split
      · exact .inl hsize
      · -- the block grew, so all of `buf` was accepted and at least `size` bytes are now stored
        rename_i hgrow
        rw [not_or] at hgrow
        have hfit := hm.spare (.inr hgrow.2)
        obtain ⟨rfl, -⟩ : min buf.length (qbufSpare m) = r ∧ _ = q' :=
          Prod.mk.inj (Option.some.inj (hw.symm.trans hw'))
        have hq' : qbufUsed q' = qbufUsed q + buf.length := by
          rw [← hv.length_stored, hst, List.length_append, h.length_stored,
            Nat.min_eq_left hfit, List.take_length]
        rw [hq']
        unfold growTo
        split
        · rw [sizeShl1_of_lt (by omega)]; omega
        · rw [sizeShl1_of_lt (by omega)]; omega
  | read len =>
      have hn : min len (qbufUsed q) < 2 ^ 31 := by omega
      refine ⟨_, _, by simp only [QOp.exec, qbufRead_eq h hn]; rfl,
        h.skip (Nat.min_le_right _ _), ?_, .inl hsize⟩
      -- a read beyond what is stored takes all of it
      have htake : (stored q).take len = (stored q).take (min len (qbufUsed q)) := by
        rw [← h.length_stored, ← List.take_take, List.take_length]
      rw [stored_skip, htake, List.take_append_drop, List.append_nil]
  | peek len =>
      exact ⟨_, _, by simp only [QOp.exec, qbufPeek_eq h]; rfl, h, by simp, .inl hsize⟩
  | collect policy =>
      obtain ⟨q', hc, hv, hst, hsz⟩ := qbufCollect_spec h policy
      exact ⟨_, _, by simp only [QOp.exec, hc]; rfl, hv, by simp [hst], .inl (by omega)⟩
  | offsetOutHead len =>
      have hlen : len < 2 ^ 31 := legal
      have hhead := qbufOffsetOutHead_eq h (show q.offsetOut + len < 2 ^ 64 by omega)
      have hskip : min len (qbufUsed q) ≤ qbufUsed q := Nat.min_le_right _ _
      have hload : load q.rawbuf q.offsetOut (min len (qbufUsed q))
          = some ((stored q).take (min len (qbufUsed q))) := by
        have := h.used_eq; have := h.size_eq
        rw [load_eq_some (by omega), slice_skipped h hskip]
      -- the bytes skipped count as handed over
      refine ⟨{ handed := (stored q).take (min len (qbufUsed q)) }, _, ?_, h.skip hskip, ?_,
        .inl hsize⟩
      · simp only [QOp.exec, hhead, Nat.add_sub_cancel_left, hload, Option.bind_eq_bind,
          Option.bind_some]
        rfl
      · rw [stored_skip, List.take_append_drop, List.append_nil]
  | rawAppend bytes =>
      obtain ⟨hfit, -⟩ : bytes.length ≤ qbufSpare q ∧ bytes.length < 2 ^ 31 := legal
      refine ⟨{ accepted := bytes }, appended q bytes, ?_, h.append hfit, ?_, .inl hsize⟩
      · simp only [QOp.exec, store_inPos h hfit, Option.bind_eq_bind, Option.bind_some,
          qbufOffsetInHead_appended h hfit]
        rfl
      · rw [stored_appended h, List.nil_append]
  | realloc len re =>
      obtain ⟨-, hin, hlen⟩ : len ≠ 0 ∧ q.offsetIn ≤ len ∧ len < 2 ^ 31 := legal
      cases re with
      | none => exact ⟨{}, q, rfl, h, by simp, .inl hsize⟩
      | some fill =>
          obtain ⟨hv, hst⟩ := qbufRealloc_some h fill hin (by omega)
          refine ⟨{}, (qbufRealloc q len (some fill)).2, rfl, hv, by simp [hst], .inl ?_⟩
          simp only [qbufRealloc]; omega

/-- A call that gives up `handed` while accepting `accepted` advances the channel it holds. -/
theorem Holds.advance {q q' : QBuf} {f : Fifo UInt8} {m : Moved} (hf : Holds q f)
    (hm : m.handed ++ stored q' = stored q ++ m.accepted) :
    Holds q' (m.advance f) ∧ (m.advance f).popped = f.popped ++ m.handed := by
  rw [hf] at hm
  constructor
  · simp only [Holds, Moved.advance, Fifo.pop_pending, Fifo.push_pending, ← hm, List.drop_left' rfl]
  · simp only [Moved.advance, Fifo.pop_popped, Fifo.push_popped, Fifo.push_pending, ← hm,
      List.take_left' rfl]

/-! ## Whole runs -/

/-- **Every run refines a channel.** The buffer reached is valid and holds a channel into which the
accepted bytes were pushed and from which the bytes given up were popped. -/
theorem QRun.refines {size : ℕ} (hsize : size < 2 ^ 31) {q : QBuf} {accepted handed : List UInt8}
    (run : QRun size q accepted handed) :
    QueueInv q ∧ ∃ f : Fifo UInt8, Holds q f ∧ f.pushed = accepted ∧ f.popped = handed := by
  induction run with
  | @new q h =>
      obtain ⟨hv, hst, hsz, hin, hout⟩ := qbufNew_spec (by omega) h
      refine ⟨⟨hv, ?_, ?_⟩, Fifo.empty, hst, rfl, rfl⟩
      · rw [hv.used_eq]; omega
      · rw [hsz]; simp only [RAW_SIZE]; split <;> omega
  | @call q q' accepted handed moved op run legal exec bound ih =>
      obtain ⟨hinv, f, hf, hpushed, hpopped⟩ := ih
      obtain ⟨moved', q'', hexec, hv, hm, hgrow⟩ := QOp.exec_spec hinv legal
      obtain ⟨rfl, rfl⟩ : moved = moved' ∧ q' = q'' :=
        Prod.mk.inj (Option.some.inj (exec.symm.trans hexec))
      obtain ⟨hholds, hpop⟩ := hf.advance hm
      refine ⟨⟨hv, bound, by omega⟩, moved.advance f, hholds, ?_, ?_⟩
      · simp only [Moved.advance, Fifo.pop_pushed, Fifo.push_pushed, hpushed]
      · rw [hpop, hpopped]

/-- **`qbuf` is a byte queue.** In every state of every run the heads are in order inside the block,
what came out followed by what is stored is exactly what went in, every legal call has defined
behaviour, and `qbuf_peek` returns the first stored bytes without changing anything. -/
theorem qbuf_is_queue {size : ℕ} (hsize : size < 2 ^ 31) {q : QBuf} {accepted handed : List UInt8}
    (run : QRun size q accepted handed) :
    q.offsetOut ≤ q.offsetIn ∧ q.offsetIn ≤ q.size ∧ q.size = q.rawbuf.length ∧
      handed ++ slice q.rawbuf q.offsetOut (q.offsetIn - q.offsetOut) = accepted ∧
      (∀ op : QOp, op.Legal q → ∃ moved q', op.exec q = some (moved, q')) ∧
      ∀ len, qbufPeek q len = some (min len (qbufUsed q), (stored q).take len) ∧
        QOp.exec q (.peek len) = some ({}, q) := by
  obtain ⟨hinv, f, hf, hpushed, hpopped⟩ := run.refines hsize
  have hv := hinv.valid
  refine ⟨hv.out_le, hv.in_le, hv.size_eq, ?_, fun op legal => ?_, fun len => ?_⟩
  · rw [← hpushed, ← hpopped, ← f.conserved, ← hf, stored]
  · obtain ⟨moved, q', hexec, -⟩ := QOp.exec_spec hinv legal
    exact ⟨moved, q', hexec⟩
  · exact ⟨qbufPeek_eq hv len, by simp only [QOp.exec, qbufPeek_eq hv]; rfl⟩

/-- A run through a buffer of four bytes whose second write has to compact it. -/
theorem qbuf_is_queue_compacting :
    ∃ q : QBuf, q.rawbuf = [3, 4, 5, 6] ∧
      [1, 2] ++ slice q.rawbuf q.offsetOut (q.offsetIn - q.offsetOut) = [1, 2, 3, 4, 5, 6] := by
  have r0 : QRun 4 ⟨[0, 0, 0, 0], 4, 0, 0⟩ [] [] := .new rfl
  have h1 : QOp.exec ⟨[0, 0, 0, 0], 4, 0, 0⟩ (.write [1, 2, 3] none)
      = some (⟨[1, 2, 3], []⟩, ⟨[1, 2, 3, 0], 4, 3, 0⟩) := by decide +kernel
  have r1 := r0.call _ (by decide +kernel) h1 (by decide +kernel)
  have h2 : QOp.exec ⟨[1, 2, 3, 0], 4, 3, 0⟩ (.read 2)
      = some (⟨[], [1, 2]⟩, ⟨[1, 2, 3, 0], 4, 3, 2⟩) := by decide +kernel
  have r2 := r1.call _ (by decide +kernel) h2 (by decide +kernel)
  have h3 : QOp.exec ⟨[1, 2, 3, 0], 4, 3, 2⟩ (.write [4, 5, 6] none)
      = some (⟨[4, 5, 6], []⟩, ⟨[3, 4, 5, 6], 4, 4, 0⟩) := by decide +kernel
  have r3 := r2.call _ (by decide +kernel) h3 (by decide +kernel)
  exact ⟨_, rfl, (qbuf_is_queue (by decide) r3).2.2.2.1⟩

end LibZio
