import LibZio.Qbuf.Queue
import LibZio.Zsocket.Runs

/-! # The send stream

`zsocket_write` appends to `wbuf` and `send` takes from its front, each compacting the buffer by its
own policy. A `SendRun` is the life of one socket as its send stream sees it: calls of
`zsocket_write` and of `zsocket_handle_send`, and anything that does not concern its `wbuf`. The
invariant is that `wbuf` holds a channel with the bytes accepted from the writers and the bytes
accepted by `send`. -/

namespace LibZio

variable {w w' : World} {s : Sid} {z : ZSocket} {q : QBuf} {written : List UInt8}

/-! ## What is observed -/

/-- The bytes that `send` has accepted from `s`, by the events of a trace. -/
def sentBytes (s : Sid) : List Event → List UInt8
  | [] => []
  | .send t offered nsend :: trace =>
      if t = s then sentBytes s trace ++ offered.take nsend.toNat else sentBytes s trace
  | _ :: trace => sentBytes s trace

/-- The contents of `wbuf`. -/
def ZSocket.unsent (z : ZSocket) : List UInt8 :=
  match z.wbuf with
  | some q => slice q.rawbuf q.offsetOut (q.offsetIn - q.offsetOut)
  | none => []

/-- The bytes of `buf` that a `zsocket_write` accepted which returned `r`. -/
def acceptedBy (r : ℕ) (buf : List UInt8) : List UInt8 := if r = SIZE_MAX then [] else buf.take r

/-! ## The buffer through one call -/

/-- What is left of the buffer after a `send`. It is never full. -/
theorem sendConsume_spec {n : ℕ} (h : q.Valid) (hs : q.size < 2 ^ 63) (h0 : 0 < n)
    (hn : n ≤ qbufUsed q) (hlt : n < 2 ^ 31) :
    ∃ q', sendConsume q n = .ok q' ∧ q'.Valid ∧ stored q' = (stored q).drop n ∧ q'.size = q.size ∧
      qbufSpare q' ≠ 0 := by
  have := h.out_le; have := h.in_le; have := h.used_eq
  have hskip := h.skip hn
  obtain ⟨q', hq', hv, hst, hsz, hcases⟩ := qbufCollect_lessSpare hskip
  refine ⟨q', ?_, hv, by rw [hst, stored_skip], hsz, ?_⟩
  · rw [sendConsume, sizeOfInt_natCast hlt, qbufOffsetOutHead_eq h (by omega),
      Nat.min_eq_left hn, hq']
    rfl
  · rw [hv.spare_eq, hsz]
    have hused := hskip.used_eq
    dsimp only at hused ⊢
    obtain ⟨-, hin⟩ | ⟨rfl, hspare⟩ := hcases
    · rw [hin, hused]; omega
    · rw [hskip.spare_eq] at hspare
      dsimp only at hspare ⊢
      omega

/-! ## Runs -/

/-- `SendRun s w written`: since the opening of `s` the writers' bytes `written` have been accepted.
Sizes and lengths stay below `2 ^ 62`, and `send` accepts fewer than `2 ^ 31` bytes at once. -/
inductive SendRun (s : Sid) : World → List UInt8 → Prop
  /-- The socket is listed and open, has no buffer yet, and nothing was sent from it. -/
  | opened {w : World} {z : ZSocket} (wf : w.WF) (live : w.mem s = .live z)
      (node : z.node = .linked) (off : z.writeEnable = false) (wbuf : z.wbuf = none)
      (fresh : sentBytes s w.trace = []) : SendRun s w []
  /-- Something happens that does not concern the buffer. -/
  | other {w w' : World} {written : List UInt8} {z z' : ZSocket} (run : SendRun s w written)
      (wf : w'.WF) (before : w.mem s = .live z) (after : w'.mem s = .live z')
      (node : z'.node = .linked) (eof : z.eof = true → z'.eof = true)
      (enable : z'.writeEnable = z.writeEnable) (wbuf : z'.wbuf = z.wbuf)
      (sent : sentBytes s w'.trace = sentBytes s w.trace) : SendRun s w' written
  /-- `zsocket_write` is called and returns `r`. -/
  | write {w w' : World} {written : List UInt8} {z : ZSocket} {r : ℕ} (buf : List UInt8)
      (io : WriteIo) (run : SendRun s w written) (live : w.mem s = .live z)
      (size : ∀ q, z.wbuf = some q → q.size < 2 ^ 62) (length : buf.length < 2 ^ 62)
      (returns : zsocketWrite s buf io w = .ok (r, w')) : SendRun s w' (written ++ acceptedBy r buf)
  /-- `zsocket_handle_send` is called and returns. -/
  | send {w w' : World} {written : List UInt8} (io : SendIo) (run : SendRun s w written)
      (looping : w.inLooping = true) (count : io.getD 0 < 2 ^ 31)
      (returns : zsocketHandleSend s io w = .ok w') : SendRun s w' written

/-- The write buffer holds a channel. -/
def WbufHolds (wbuf : Option QBuf) (f : Fifo UInt8) : Prop :=
  match wbuf with
  | none => f.pending = []
  | some q => q.Valid ∧ q.size < 2 ^ 63 ∧ Holds q f

/-- The invariant of a run: the socket is listed, its write buffer holds a channel, and what has
left the channel was accepted by `send`. -/
structure SendOk (w : World) (s : Sid) (z : ZSocket) (f : Fifo UInt8) : Prop where
  wf : w.WF
  live : w.mem s = .live z
  node : z.node = .linked
  enable : z.eof = false → (z.writeEnable = true ↔ z.wbuf.isSome)
  holds : WbufHolds z.wbuf f
  sent : sentBytes s w.trace = f.popped

/-- A write appends the prefix it accepts. -/
theorem WbufHolds.write {f : Fifo UInt8} {buf : List UInt8} {re : Realloc} {r : ℕ} {q' : QBuf}
    (h : q.Valid) (hs : q.size < 2 ^ 62) (hf : Holds q f) (hl : buf.length < 2 ^ 62)
    (hok : qbufWrite q buf re = some (r, q')) :
    acceptedBy r buf = buf.take r ∧ WbufHolds (some q') (f.push (acceptedBy r buf)) := by
  obtain ⟨r', q₁, hw, hr, hv, hst, hsz⟩ :=
    qbufWrite_spec h (by omega) (show buf.length < 2 ^ 63 by omega) re
  obtain ⟨rfl, rfl⟩ : r' = r ∧ q₁ = q' := Prod.mk.inj (Option.some.inj (hw.symm.trans hok))
  have htaken : acceptedBy r' buf = buf.take r' := by
    rw [acceptedBy, if_neg (by unfold SIZE_MAX; omega)]
  refine ⟨htaken, hv, ?_, ?_⟩
  · rw [hsz]
    split
    · omega
    · unfold growTo
      split
      · rw [sizeShl1_of_lt (by omega)]; omega
      · rw [sizeShl1_of_lt (by omega)]; omega
  · rw [Holds, hst, hf, htaken]; rfl

/-- **One `zsocket_write`.** -/
theorem SendOk.write {f : Fifo UInt8} {buf : List UInt8} {io : WriteIo} {r : ℕ} (h : SendOk w s z f)
    (size : ∀ q, z.wbuf = some q → q.size < 2 ^ 62) (length : buf.length < 2 ^ 62)
    (returns : zsocketWrite s buf io w = .ok (r, w')) :
    ∃ z', SendOk w' s z' (f.push (acceptedBy r buf)) := by
  have hwf := (zsocketWrite_moves h.wf returns).wf h.wf
  obtain ⟨z₁, hz₁, he, ⟨-, hnull, -, rfl, rfl⟩ | ⟨q, q', -, hnull, hnew, -, hwrite, rfl⟩ |
    ⟨q, q', hon, hq, hwrite, rfl⟩⟩ := zsocketWrite_eq_ok.mp returns
  all_goals obtain rfl : z = z₁ := Slot.live.inj (h.live.symm.trans hz₁)
  · have hnil : f.push (acceptedBy SIZE_MAX buf) = f := by
      obtain ⟨pushed, popped, pending, conserved⟩ := f
      simp [Fifo.push, acceptedBy]
    rw [hnil]
    exact ⟨z, h⟩
  · obtain ⟨hv, hst, hsz, -⟩ := qbufNew_spec (by decide) hnew
    have hempty : Holds q f := by
      have := h.holds
      rw [hnull] at this
      exact hst.trans this.symm
    have hsize : q.size = 8192 := hsz
    obtain ⟨-, hholds⟩ := WbufHolds.write hv (by omega) hempty length hwrite
    refine ⟨_, hwf, World.put_mem_self _ _ _, h.node, fun _ => ?_, hholds, h.sent⟩
    exact ⟨fun _ => rfl, fun _ => hasFlag_or_self _ (by decide)⟩
  · have hold : q.Valid ∧ q.size < 2 ^ 63 ∧ Holds q f := by
      have := h.holds
      rwa [hq] at this
    obtain ⟨-, hholds⟩ := WbufHolds.write hold.1 (size q hq) hold.2.2 length hwrite
    exact ⟨_, hwf, World.put_mem_self _ _ _, h.node, fun _ => ⟨fun _ => rfl, fun _ => hon⟩, hholds,
      h.sent⟩

/-- What `send` returns as an `int`. -/
theorem SendIo.nsend_some {n : ℕ} (h : n < 2 ^ 31) : SendIo.nsend (some n) = n := intOfSize_of_lt h

/-- **One `zsocket_handle_send`.** -/
theorem SendOk.send {f : Fifo UInt8} {io : SendIo} (h : SendOk w s z f)
    (looping : w.inLooping = true)
    (count : io.getD 0 < 2 ^ 31) (returns : zsocketHandleSend s io w = .ok w') :
    ∃ z' n, SendOk w' s z' (f.pop n) := by
  have hwf := (zsocketHandleSend_moves h.wf looping returns).wf h.wf
  have hpop : f.pop 0 = f := by
    obtain ⟨pushed, popped, pending, conserved⟩ := f
    simp [Fifo.pop]
  obtain ⟨z₁, q, hz₁, -, he, hon, hq, ⟨-, rfl⟩ | ⟨-, hle, offered, hload, hcases⟩⟩ :=
    zsocketHandleSend_cases looping returns
  all_goals obtain rfl : z = z₁ := Slot.live.inj (h.live.symm.trans hz₁)
  · exact ⟨z, 0, by rw [hpop]; exact h⟩
  obtain ⟨hv, hsize, hf⟩ : q.Valid ∧ q.size < 2 ^ 63 ∧ Holds q f := by
    have := h.holds
    rwa [hq] at this
  obtain rfl : stored q = offered := Option.some.inj ((hv.load_stored).symm.trans hload)
  obtain ⟨hfail, -, z', same, ⟨-, hwbuf⟩, rfl⟩ | ⟨hne, hnonpos, rfl⟩ | ⟨hpos, q', hc, hrest⟩ :=
    hcases
  -- the send failed: nothing is sent, and the socket is closed with its buffer as it was
  · refine ⟨_, 0, hwf, World.put_mem_self _ _ _, same.node.trans h.node, fun hc => ?_, ?_, ?_⟩
    · rw [ZSocket.closed_eof] at hc; cases hc
    · rw [show (z'.closed none).wbuf = z'.wbuf from rfl, hwbuf, hpop]
      exact ⟨hv, hsize, hf⟩
    · rw [hpop, ← h.sent]
      change sentBytes s (.send s (stored q) io.nsend :: w.trace) = _
      rw [sentBytes, if_pos rfl, hfail]
      simp
  · refine ⟨z, 0, hwf, h.live, h.node, h.enable, by rw [hpop]; exact h.holds, ?_⟩
    rw [hpop, ← h.sent]
    change sentBytes s (.send s (stored q) io.nsend :: w.trace) = _
    rw [sentBytes, if_pos rfl, Int.toNat_of_nonpos hnonpos]
    simp
  · cases io with
    | none => exact absurd hpos (by decide)
    | some n =>
        have hn : n < 2 ^ 31 := count
        rw [SendIo.nsend_some hn] at hpos hc
        obtain ⟨q₁, hq₁, hv', hst, hsz, hspare⟩ :=
          sendConsume_spec hv hsize (by omega) (by simpa using hle) hn
        obtain rfl : q₁ = q' := Except.ok.inj (hq₁.symm.trans hc)
        obtain ⟨hfull, -⟩ | ⟨-, rfl⟩ := hrest
        -- what was sent is spare after the compaction, so that the buffer is not full
        · exact absurd hfull hspare
        · refine ⟨_, n, hwf, World.put_mem_self _ _ _, h.node,
            fun _ => ⟨fun _ => rfl, fun _ => hon⟩, ⟨hv', by omega, ?_⟩, ?_⟩
          · rw [Holds, hst, hf]; rfl
          · change sentBytes s (.send s (stored q) (SendIo.nsend (some n)) :: w.trace) = _
            rw [sentBytes, if_pos rfl, SendIo.nsend_some hn, h.sent, hf]
            rfl

/-- **Every run keeps a channel** into which the bytes accepted from the writers were pushed. -/
theorem SendRun.holds (run : SendRun s w written) : ∃ z f, SendOk w s z f ∧ f.pushed = written := by
  induction run with
  | @opened w z wf live node off wbuf fresh =>
      refine ⟨z, .empty, ⟨wf, live, node, fun _ => ?_, by rw [wbuf]; rfl, fresh⟩, rfl⟩
      rw [off, wbuf]
      simp
  | @other w w' written z z' run wf before after node eof enable wbuf sent ih =>
      obtain ⟨z₀, f, h, hpushed⟩ := ih
      obtain rfl : z = z₀ := Slot.live.inj (before.symm.trans h.live)
      refine ⟨z', f,
        ⟨wf, after, node, fun he => ?_, by rw [wbuf]; exact h.holds, sent.trans h.sent⟩, hpushed⟩
      rw [enable, wbuf]
      refine h.enable ?_
      cases hz : z.eof with
      | false => rfl
      | true => rw [eof hz] at he; cases he
  | @write w w' written z r buf io run live size length returns ih =>
      obtain ⟨z₀, f, h, hpushed⟩ := ih
      obtain rfl : z = z₀ := Slot.live.inj (live.symm.trans h.live)
      obtain ⟨z', h'⟩ := h.write size length returns
      exact ⟨z', _, h', by rw [Fifo.push_pushed, hpushed]⟩
  | @send w w' written io run looping count returns ih =>
      obtain ⟨z₀, f, h, hpushed⟩ := ih
      obtain ⟨z', n, h'⟩ := h.send looping count returns
      exact ⟨z', _, h', hpushed⟩

/-! ## The calls are defined -/

/-- `zsocket_write` returns on every open socket with a descriptor in range. -/
theorem SendOk.write_defined {f : Fifo UInt8} (h : SendOk w s z f) (he : z.eof = false)
    (hfd : World.InRange z.fd) (size : ∀ q, z.wbuf = some q → q.size < 2 ^ 62) {buf : List UInt8}
    (length : buf.length < 2 ^ 62) (io : WriteIo) :
    ∃ r w', zsocketWrite s buf io w = .ok (r, w') := by
  cases hq : z.wbuf with
  | none =>
      have hoff : z.writeEnable = false := by
        have := h.enable he
        rw [hq] at this
        simpa using this
      cases hnew : qbufNew WRITE_BUF_SIZE io.callocSelf io.callocRaw with
      | none =>
        exact ⟨_, _, zsocketWrite_eq_ok.mpr ⟨z, h.live, he, .inl ⟨hoff, hq, hnew, rfl, rfl⟩⟩⟩
      | some q =>
          obtain ⟨hv, -, hsz, -⟩ := qbufNew_spec (by decide) hnew
          have hsize : q.size = 8192 := hsz
          obtain ⟨r, q', hwrite, -⟩ := qbufWrite_spec hv (by omega)
            (show buf.length < 2 ^ 63 by omega) io.realloc
          exact ⟨r, _, zsocketWrite_eq_ok.mpr
            ⟨z, h.live, he, .inr (.inl ⟨q, q', hoff, hq, hnew, hfd, hwrite, rfl⟩)⟩⟩
  | some q =>
      have hon : z.writeEnable = true := (h.enable he).mpr (by rw [hq]; rfl)
      have hv : q.Valid := by
        have := h.holds
        rw [hq] at this
        exact this.1
      obtain ⟨r, q', hwrite, -⟩ := qbufWrite_spec hv (by have := size q hq; omega)
        (show buf.length < 2 ^ 63 by omega) io.realloc
      exact ⟨r, _,
        zsocketWrite_eq_ok.mpr ⟨z, h.live, he, .inr (.inr ⟨q, q', hon, hq, hwrite, rfl⟩)⟩⟩

/-- `zsocket_handle_send` returns wherever its entry assertions hold and the descriptor is in
range. -/
theorem SendOk.send_defined {f : Fifo UInt8} (h : SendOk w s z f) (looping : w.inLooping = true)
    (entry : z.SendEntry) (hfd : World.InRange z.fd) {io : SendIo} (count : io.getD 0 < 2 ^ 31)
    (pending : io.getD 0 ≤ z.unsent.length) : ∃ w', zsocketHandleSend s io w = .ok w' := by
  obtain ⟨q, hq⟩ := Option.isSome_iff_exists.mp entry.wbuf
  obtain ⟨hv, hsize, hf⟩ : q.Valid ∧ q.size < 2 ^ 63 ∧ Holds q f := by
    have := h.holds
    rwa [hq] at this
  have hle : io.getD 0 ≤ qbufUsed q := by
    rw [ZSocket.unsent, hq] at pending
    rw [← hv.length_stored]
    exact pending
  rw [zsocketHandleSend, World.deref_eq_ok.mpr h.live, ok_bind, decide_eq_true entry.type,
    ensure_true,
    ok_bind, entry.eof, Bool.not_false, ensure_true, ok_bind, entry.enable, ensure_true,
      ok_bind, hq, orFail_some, ok_bind]
  by_cases hu : qbufUsed q = 0
  · exact ⟨w, by rw [if_pos hu]; rfl⟩
  rw [if_neg hu, hv.load_stored, orFail_some, ok_bind, decide_eq_true hle, ensure_true, ok_bind]
  dsimp only
  cases io with
  | none =>
      rw [if_pos (show SendIo.nsend none = -1 from rfl)]
      exact ⟨_, (zsocketCloseWith_looping (by exact looping)).mpr
        ⟨_, World.put_mem_self _ _ _, hasFlag_and_of_disjoint _ (by decide), hfd, rfl⟩⟩
  | some n =>
      have hn : n < 2 ^ 31 := count
      replace hle : n ≤ qbufUsed q := hle
      rw [SendIo.nsend_some hn, if_neg (by omega)]
      by_cases hpos : (n : ℤ) > 0
      · obtain ⟨q', hc, -, -, -, hspare⟩ := sendConsume_spec hv hsize (by omega) hle hn
        rw [if_pos hpos, hc, ok_bind, if_neg hspare]
        exact ⟨_, rfl⟩
      · rw [if_neg hpos]
        exact ⟨_, rfl⟩

/-- **The send stream is intact.** At every point of every run the bytes accepted by `send` followed
by the contents of `wbuf` are exactly the bytes accepted from the writers, a write that returns
`(size_t)-1` changes nothing, and the calls of the run have defined behaviour. -/
theorem send_stream_intact (run : SendRun s w written) :
    ∃ z, w.mem s = .live z ∧ sentBytes s w.trace ++ z.unsent = written ∧
      (∀ buf io w', buf.length < 2 ^ 62 → (∀ q, z.wbuf = some q → q.size < 2 ^ 62) →
        zsocketWrite s buf io w = .ok (SIZE_MAX, w') → w' = w) ∧
      (z.eof = false → World.InRange z.fd → (∀ q, z.wbuf = some q → q.size < 2 ^ 62) →
        ∀ buf io, buf.length < 2 ^ 62 → ∃ r w', zsocketWrite s buf io w = .ok (r, w')) ∧
      (w.inLooping = true → z.SendEntry → World.InRange z.fd → ∀ io : SendIo, io.getD 0 < 2 ^ 31 →
        io.getD 0 ≤ z.unsent.length → ∃ w', zsocketHandleSend s io w = .ok w') := by
  obtain ⟨z, f, h, hpushed⟩ := run.holds
  refine ⟨z, h.live, ?_, ?_, fun he hfd size buf io length => h.write_defined he hfd size length io,
    fun looping entry hfd io count pending => h.send_defined looping entry hfd count pending⟩
  · have hunsent : z.unsent = f.pending := by
      have hholds := h.holds
      rw [ZSocket.unsent]
      cases hq : z.wbuf with
      | none => rw [hq] at hholds; exact hholds.symm
      | some q => rw [hq] at hholds; exact hholds.2.2
    rw [h.sent, hunsent, f.conserved, hpushed]
  · intro buf io w' length size returns
    -- a write that has a buffer returns at most the length asked for
    have small : ∀ {q q' : QBuf}, q.Valid → q.size < 2 ^ 62 →
        qbufWrite q buf io.realloc ≠ some (SIZE_MAX, q') := by
      intro q q' hv hs hwrite
      obtain ⟨r, q₁, hw, hr, -⟩ := qbufWrite_spec hv (by omega) (show buf.length < 2 ^ 63 by omega)
        io.realloc
      obtain ⟨rfl, -⟩ : r = SIZE_MAX ∧ q₁ = q' :=
        Prod.mk.inj (Option.some.inj (hw.symm.trans hwrite))
      unfold SIZE_MAX at hr
      omega
    obtain ⟨z₁, hz₁, -,
        ⟨-, -, -, -, rfl⟩ | ⟨q, q', -, -, hnew, -, hwrite, -⟩ | ⟨q, q', -, hq, hwrite, -⟩⟩ :=
      zsocketWrite_eq_ok.mp returns
    all_goals obtain rfl : z = z₁ := Slot.live.inj (h.live.symm.trans hz₁)
    · rfl
    · obtain ⟨hv, -, hsz, -⟩ := qbufNew_spec (by decide) hnew
      have hsize : q.size = 8192 := hsz
      exact absurd hwrite (small hv (by omega))
    · have hv : q.Valid := by
        have := h.holds
        rw [hq] at this
        exact this.1
      exact absurd hwrite (small hv (size q hq))

/-- Whether `[1, 2, 3]` can be written to the connection `1` and two of the bytes sent. -/
def sendsPart (w : World) : Bool :=
  match w.mem 1 with
  | .live z =>
      decide (z.node = .linked ∧ z.writeEnable = false ∧ z.wbuf = none ∧
          sentBytes 1 w.trace = []) &&
        match zsocketWrite 1 [1, 2, 3] ⟨true, true, none⟩ w with
        | .ok (r, v) => decide (r = 3 ∧ v.inLooping = true) &&
            match zsocketHandleSend 1 (some 2) v with
            | .ok w' => decide (sentBytes 1 w'.trace = [1, 2])
            | .error _ => false
        | .error _ => false
  | _ => false

/-- The connection `1` has `[1, 2, 3]` in its buffer, and two of the bytes are sent. -/
theorem sendsPart_run : ∃ v w' : World, SendRun 1 v [1, 2, 3] ∧ v.inLooping = true ∧
    zsocketHandleSend 1 (some 2) v = .ok w' ∧ sentBytes 1 w'.trace = [1, 2] := by
  obtain ⟨c, r, h⟩ := Machine.Reach.of_leadsTo (M := zio) (P := fun c => sendsPart c.world) .init
    (show zio.leadsTo Machine.anyStep _ (acceptOne 8000 ++ [.loop 1000 (.ready {3} ∅)])
      zio.init = true
      by decide +kernel)
  rw [sendsPart] at h
  split at h
  · next z hz =>
    obtain ⟨hz', h⟩ := (Bool.and_eq_true _ _).mp h
    obtain ⟨hn, hoff, hnull, hfresh⟩ := of_decide_eq_true hz'
    split at h
    · next r v hv =>
      obtain ⟨hv', hsend⟩ := (Bool.and_eq_true _ _).mp h
      obtain ⟨rfl, hl⟩ := of_decide_eq_true hv'
      split at hsend
      · next w' hw' =>
        have start : SendRun 1 c.world [] := .opened (Sys.sound r).wf hz hn hoff hnull hfresh
        exact ⟨v, w', start.write [1, 2, 3] ⟨true, true, none⟩ hz
          (fun q hq => by rw [hnull] at hq; cases hq) (by decide) hv, hl, hw',
          of_decide_eq_true hsend⟩
      · cases hsend
    · cases h
  · cases h

/-- After `[1, 2, 3]` was written and two bytes were sent, the third is still to be sent. -/
theorem send_stream_intact_run : ∃ (w : World) (z : ZSocket), w.mem 1 = .live z ∧
    sentBytes 1 w.trace = [1, 2] ∧ sentBytes 1 w.trace ++ z.unsent = [1, 2, 3] := by
  obtain ⟨v, w', written, hl, hw', hsent⟩ := sendsPart_run
  obtain ⟨y, hy, hstream, -⟩ := send_stream_intact (written.send (some 2) hl (by decide) hw')
  exact ⟨w', y, hy, hsent, hstream⟩

/-! ## The buffer never runs out -/

/-- A `send` that is asked for at least one byte. -/
theorem ZSocket.unsent_ne_nil (hq : z.wbuf = some q) (h : q.Valid) :
    z.unsent ≠ [] ↔ qbufUsed q ≠ 0 := by
  rw [ZSocket.unsent, hq]
  change stored q ≠ [] ↔ _
  rw [← h.length_stored, ne_eq, ne_eq, List.length_eq_zero_iff]

/-- **The send path never runs out of space.** At every point of every run, whatever part of the
pending bytes `send` accepts, the buffer has spare space afterwards, so that `zsocket_handle_send`
closes the socket exactly when it calls `send` and `send` returns `-1`. -/
theorem send_never_runs_out (run : SendRun s w written) (looping : w.inLooping = true) {io : SendIo}
    (count : io.getD 0 < 2 ^ 31) :
    ∃ z, w.mem s = .live z ∧
      (∀ q n, z.wbuf = some q → io = some n → 0 < n → n ≤ qbufUsed q →
        ∃ q', sendConsume q io.nsend = .ok q' ∧ 0 < qbufSpare q') ∧
      ∀ w', zsocketHandleSend s io w = .ok w' →
        ∃ z', w'.mem s = .live z' ∧ (z'.eof = true ↔ z.unsent ≠ [] ∧ io.nsend = -1) := by
  obtain ⟨z, f, h, -⟩ := run.holds
  have hbuf : ∀ q, z.wbuf = some q → q.Valid ∧ q.size < 2 ^ 63 := by
    intro q hq
    have := h.holds
    rw [hq] at this
    exact ⟨this.1, this.2.1⟩
  have hspare : ∀ q n, z.wbuf = some q → io = some n → 0 < n → n ≤ qbufUsed q →
      ∃ q', sendConsume q io.nsend = .ok q' ∧ 0 < qbufSpare q' := by
    rintro q n hq rfl hpos hle
    have hn : n < 2 ^ 31 := count
    obtain ⟨hv, hsize⟩ := hbuf q hq
    obtain ⟨q', hc, -, -, -, hne⟩ := sendConsume_spec hv hsize hpos hle hn
    exact ⟨q', by rw [SendIo.nsend_some hn]; exact hc, Nat.pos_of_ne_zero hne⟩
  refine ⟨z, h.live, hspare, fun w' returns => ?_⟩
  obtain ⟨z₁, q, hz₁, -, he, -, hq, hcases⟩ := zsocketHandleSend_cases looping returns
  obtain rfl : z = z₁ := Slot.live.inj (h.live.symm.trans hz₁)
  obtain ⟨hv, -⟩ := hbuf q hq
  have hopen : ¬ z.eof = true := by rw [he]; decide
  obtain ⟨hnone, rfl⟩ | ⟨hsome, hle, offered, -, hsent⟩ := hcases
  · refine ⟨z, h.live, iff_of_false hopen fun hc => ?_⟩
    exact (z.unsent_ne_nil hq hv).mp hc.1 hnone
  have hunsent : z.unsent ≠ [] := (z.unsent_ne_nil hq hv).mpr hsome
  obtain ⟨hfail, -, z', -, -, rfl⟩ | ⟨hne, -, rfl⟩ | ⟨hpos, q', hc, hrest⟩ := hsent
  · exact ⟨_, World.put_mem_self _ _ _, iff_of_true (ZSocket.closed_eof _ _) ⟨hunsent, hfail⟩⟩
  · exact ⟨z, h.live, iff_of_false hopen fun hc => hne hc.2⟩
  · obtain ⟨hfull, -⟩ | ⟨-, rfl⟩ := hrest
    -- the branch that closes for lack of space is not reached
    · cases io with
      | none => exact absurd hpos (by decide)
      | some n =>
          have hn : n < 2 ^ 31 := count
          rw [SendIo.nsend_some hn] at hpos
          obtain ⟨q₁, hc₁, hroom⟩ := hspare q n hq rfl (by omega) hle
          obtain rfl : q₁ = q' := Except.ok.inj (hc₁.symm.trans hc)
          omega
    · refine ⟨_, World.put_mem_self _ _ _, iff_of_false hopen fun hc => ?_⟩
      rw [hc.2] at hpos
      exact absurd hpos (by decide)

/-- A buffer from which all bytes but the last are sent has room, and the socket stays open. -/
theorem send_never_runs_out_run : ∃ (w w' : World) (z' : ZSocket),
    zsocketHandleSend 1 (some 2) w = .ok w' ∧ w'.mem 1 = .live z' ∧ z'.eof = false := by
  obtain ⟨v, w', written, hl, hw', -⟩ := sendsPart_run
  obtain ⟨y, -, -, hclose⟩ := send_never_runs_out written hl
    (show Option.getD (some 2 : SendIo) 0 < 2 ^ 31 by decide)
  obtain ⟨y', hy', hiff⟩ := hclose w' hw'
  refine ⟨v, w', y', hw', hy', ?_⟩
  exact eq_false_of_ne_true fun he => absurd (hiff.mp he).2 (by decide)

end LibZio
