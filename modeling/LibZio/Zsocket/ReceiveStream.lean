import LibZio.Qbuf.Queue
import LibZio.Zsocket.Runs

/-! # The receive stream

`recv` writes behind the contents of `rbuf`, `read_cb` is offered all of them and consumes a prefix,
and in between the buffer is compacted, reset or doubled. A `RecvRun` is the life of one socket as
its receive stream sees it: calls of `zsocket_handle_recv`, and anything that does not concern its
`rbuf`. The invariant is that `rbuf` holds a channel with the bytes received and the bytes
consumed. -/

namespace LibZio

variable {w w' : World} {s : Sid} {z : ZSocket} {q : QBuf} {io : RecvIo}

/-! ## The buffer through one call -/

/-- The bytes that `recv` received. -/
def RecvIo.bytes (io : RecvIo) : List UInt8 := io.recv.getD []

/-- The receive buffer between two calls. A quarter of the block lies behind the out head, so a full
block that is about to be doubled is at most four times the backlog. -/
structure RecvBuffer (q : QBuf) : Prop where
  valid : q.Valid
  head : 4 * q.offsetOut ≤ 3 * q.size
  size_le : q.size ≤ 2 ^ 34

/-- A new buffer. -/
theorem RecvBuffer.new {a b : Bool} (h : qbufNew READ_BUF_SIZE a b = some q) :
    RecvBuffer q ∧ stored q = [] := by
  obtain ⟨hv, hst, hsz, -, hout⟩ := qbufNew_spec (by decide) h
  have hsize : q.size = 8192 := hsz
  exact ⟨⟨hv, by omega, by omega⟩, hst⟩

/-- The `recv` appends what it received. -/
theorem recvStore_eq (h : q.Valid) (hfit : io.bytes.length ≤ qbufSpare q)
    (hlt : io.bytes.length < 2 ^ 31) : recvStore q io = .ok (appended q io.bytes) := by
  rw [recvStore]
  dsimp only
  rw [show io.recv.getD [] = io.bytes from rfl, decide_eq_true hfit, ensure_true, ok_bind,
    store_inPos h hfit, orFail_some, ok_bind]
  cases hr : io.recv with
  | none =>
      have hnone : io.bytes = [] := by rw [RecvIo.bytes, hr]; rfl
      have hn : io.nrecv = -1 := by rw [RecvIo.nrecv, hr]
      rw [hn, if_neg (by decide), hnone]
      rfl
  | some bytes =>
      have hsome : io.bytes = bytes := by rw [RecvIo.bytes, hr]; rfl
      have hn : io.nrecv = (io.bytes.length : ℤ) := by
        rw [RecvIo.nrecv, hr, hsome]
        exact intOfSize_of_lt (by rw [← hsome]; exact hlt)
      by_cases hpos : io.nrecv > 0
      · rw [if_pos hpos, hn, sizeOfInt_natCast hlt, qbufOffsetInHead_appended h hfit]
        rfl
      · have hnil : io.bytes = [] := List.eq_nil_of_length_eq_zero (by omega)
        rw [if_neg hpos, hnil]
        rfl

/-- What is offered to `read_cb` is what is stored. -/
theorem recvOffer_eq (h : q.Valid) (hlt : qbufUsed q < 2 ^ 31) :
    recvOffer q = .ok (stored q, (stored q).length) := by
  rw [recvOffer, h.load_stored, orFail_some, ok_bind, intOfSize_of_lt hlt, h.length_stored]
  rfl

/-- `read_cb` consumes the prefix it says, or everything when it says more. A buffer that has
changed has room, and a quarter of it lies behind the out head. -/
theorem recvConsume_cases {nr : BitVec 32} (hv : q.Valid) (hnr : 0 ≤ nr.toInt) :
    ∃ q', recvConsume q (qbufUsed q) nr = .ok q' ∧ q'.Valid ∧
      stored q' = (stored q).drop nr.toInt.toNat ∧ q'.size = q.size ∧
      (q' = q ∨ 4 * q'.offsetOut < 3 * q'.size ∧ qbufSpare q' ≠ 0) := by
  have := hv.out_le; have := hv.in_le; have := hv.size_lt
  have hbits : nr.toInt < 2 ^ 31 := BitVec.toInt_lt
  -- a count above the length is cut down to it, and fits into an `int` as the count does
  have hcount : (if sizeOfInt nr.toInt > qbufUsed q then intOfSize (qbufUsed q) else nr.toInt) =
      (min nr.toInt.toNat (qbufUsed q) : ℕ) := by
    rw [sizeOfInt_of_nonneg hnr hbits]
    by_cases hlt : nr.toInt.toNat > qbufUsed q
    · rw [if_pos hlt, intOfSize_of_lt (by omega), Nat.min_eq_right (by omega)]
    · rw [if_neg hlt]
      omega
  have hdrop :
      (stored q).drop nr.toInt.toNat = (stored q).drop (min nr.toInt.toNat (qbufUsed q)) := by
    rw [← hv.length_stored]
    by_cases hle : nr.toInt.toNat ≤ (stored q).length
    · rw [Nat.min_eq_left hle]
    · rw [Nat.min_eq_right (by omega), List.drop_length, List.drop_eq_nil_of_le (by omega)]
  rw [recvConsume]
  dsimp only
  rw [hcount, hdrop]
  by_cases h0 : min nr.toInt.toNat (qbufUsed q) = 0
  · rw [h0, if_neg (by simp)]
    exact ⟨q, rfl, hv, rfl, rfl, .inl rfl⟩
  · have hk : min nr.toInt.toNat (qbufUsed q) ≤ qbufUsed q := Nat.min_le_right _ _
    have hused := hv.used_eq
    rw [if_pos (by exact_mod_cast h0), sizeOfInt_natCast (by omega),
      qbufOffsetOutHead_eq hv (by omega), Nat.min_eq_left hk]
    have hskip := hv.skip hk
    have hskipped := hskip.used_eq
    obtain ⟨q', hq', hv', hst, hsz, hcases⟩ := qbufCollect_lessSpare hskip
    rw [hq']
    refine ⟨q', rfl, hv', by rw [hst, stored_skip], hsz, .inr ?_⟩
    dsimp only at hsz hskipped hcases
    rw [hv'.spare_eq, hsz]
    obtain ⟨hout, hin⟩ | ⟨rfl, hspare⟩ := hcases
    -- nothing is left in front of the contents, which have become shorter
    · omega
    · rw [hskip.spare_eq] at hspare
      have := hskip.out_le
      dsimp only at this hspare ⊢
      omega

/-- What is left of a receive buffer after the consumption. -/
theorem recvConsume_spec {nr : BitVec 32} (h : RecvBuffer q) (hnr : 0 ≤ nr.toInt) :
    ∃ q', recvConsume q (qbufUsed q) nr = .ok q' ∧ RecvBuffer q' ∧
      stored q' = (stored q).drop nr.toInt.toNat ∧ q'.size = q.size := by
  obtain ⟨hv, hhead, hsize⟩ := h
  obtain ⟨q', hq', hv', hst, hsz, rfl | ⟨hhead', -⟩⟩ := recvConsume_cases hv hnr
  · exact ⟨q', hq', ⟨hv, hhead, hsize⟩, hst, hsz⟩
  · exact ⟨q', hq', ⟨hv', by omega, by omega⟩, hst, hsz⟩

/-- A full buffer that is doubled. -/
theorem RecvBuffer.grow (h : RecvBuffer q) (hlt : qbufUsed q < 2 ^ 31) (hfull : qbufSpare q = 0)
    (re : Realloc) :
    RecvBuffer (qbufRealloc q (sizeShl1 (qbufSize q)) re).2 ∧
      stored (qbufRealloc q (sizeShl1 (qbufSize q)) re).2 = stored q := by
  obtain ⟨hv, hhead, hsize⟩ := h
  have := hv.out_le; have := hv.in_le
  rw [hv.spare_eq] at hfull
  rw [hv.used_eq] at hlt
  have hdouble : sizeShl1 (qbufSize q) = q.size * 2 := sizeShl1_of_lt (by rw [qbufSize]; omega)
  cases re with
  | none => exact ⟨⟨hv, hhead, hsize⟩, rfl⟩
  | some fill =>
      rw [hdouble]
      obtain ⟨hv', hst⟩ :=
        qbufRealloc_some hv fill (show q.offsetIn ≤ q.size * 2 by omega) (by omega)
      refine ⟨⟨hv', ?_, ?_⟩, hst⟩
      · simp only [qbufRealloc]; omega
      · simp only [qbufRealloc]; omega

/-! ## Runs -/

/-- A move that leaves the socket `s` listed and its read buffer alone. -/
def Act.leavesRbuf (s : Sid) (a : Act) : Prop := a ≠ .unlink s ∧ ¬ a.rewritesRbuf s

/-- `RecvRun s w received consumed`: since its opening, `recv` has received `received` on the client
or connection `s`, and `read_cb` has consumed `consumed`. The backlog stays below `2 ^ 31` bytes. -/
inductive RecvRun (s : Sid) : World → List UInt8 → List UInt8 → Prop
  /-- The socket is listed and has no buffer yet. -/
  | opened {w : World} {z : ZSocket} (wf : w.WF) (live : w.mem s = .live z)
      (node : z.node = .linked) (type : z.type ≠ .server) (rbuf : z.rbuf = none) : RecvRun s w [] []
  /-- Something happens that does not concern the buffer. -/
  | other {w w' : World} {received consumed : List UInt8} (run : RecvRun s w received consumed)
      (moves : Moves (Act.leavesRbuf s) w w') : RecvRun s w' received consumed
  /-- `zsocket_handle_recv` is called, has its buffer, and returns. -/
  | call {w w' : World} {received consumed : List UInt8} {z : ZSocket} (io : RecvIo)
      (run : RecvRun s w received consumed) (looping : w.inLooping = true)
      (live : w.mem s = .live z) (room : (io.buffer z.rbuf).isSome)
      (bound : received.length + io.bytes.length < 2 ^ 31 + consumed.length)
      (returns : zsocketHandleRecv s io w = .ok w') :
      RecvRun s w' (received ++ io.bytes)
        (consumed ++ ((received ++ io.bytes).drop consumed.length).take io.nr.toInt.toNat)

/-- The read buffer holds a channel. -/
def RbufHolds (rbuf : Option QBuf) (f : Fifo UInt8) : Prop :=
  match rbuf with
  | none => f.pending = []
  | some q => RecvBuffer q ∧ Holds q f

/-- The invariant of a run: the socket is listed, and its read buffer holds a channel. -/
structure RecvOk (w : World) (s : Sid) (z : ZSocket) (f : Fifo UInt8) : Prop where
  wf : w.WF
  live : w.mem s = .live z
  node : z.node = .linked
  type : z.type ≠ .server
  holds : RbufHolds z.rbuf f

/-- The lazy allocation keeps the channel. -/
theorem RbufHolds.buffer {rbuf : Option QBuf} {f : Fifo UInt8} (h : RbufHolds rbuf f)
    (hb : io.buffer rbuf = some q) : RecvBuffer q ∧ Holds q f := by
  cases rbuf with
  | some q₀ => obtain rfl : q₀ = q := Option.some.inj hb; exact h
  | none =>
      obtain ⟨hbuf, hst⟩ := RecvBuffer.new hb
      exact ⟨hbuf, hst.trans h.symm⟩

/-- **The read buffer between the `recv` and the callback.** -/
theorem RecvBuffer.receive {f : Fifo UInt8} (h : RecvBuffer q) (hf : Holds q f)
    (hfit : io.bytes.length ≤ qbufSpare q) (hlt : f.pending.length + io.bytes.length < 2 ^ 31) :
    recvStore q io = .ok (appended q io.bytes) ∧ RecvBuffer (appended q io.bytes) ∧
      Holds (appended q io.bytes) (f.push io.bytes) ∧ qbufUsed (appended q io.bytes) < 2 ^ 31 := by
  have hv := h.valid.append hfit
  have hst := stored_appended h.valid io.bytes
  rw [hf] at hst
  refine ⟨recvStore_eq h.valid hfit (by omega), ⟨hv, h.head, h.size_le⟩, hst, ?_⟩
  rw [← hv.length_stored, hst, List.length_append]
  exact hlt

/-- A chunk that is stored fits into the spare space. -/
theorem fits_of_recvStore {q' : QBuf} (h : recvStore q io = .ok q') :
    io.bytes.length ≤ qbufSpare q := by
  obtain ⟨_, hfit, -⟩ := bind_eq_ok.mp h
  exact of_decide_eq_true (ensure_eq_ok.mp hfit)

/-- The consumption leaves the socket listed with a buffer that holds what is left. -/
theorem recvDrain_holds {f : Fifo UInt8} (hl : w.inLooping = true) (hz : w.mem s = .live z)
    (hn : z.node = .linked) (ht : z.type ≠ .server) (hq : z.rbuf = some q) (h : RecvBuffer q)
    (hf : Holds q f) (hlt : qbufUsed q < 2 ^ 31) (hnr : 0 ≤ io.nr.toInt)
    (hok : recvDrain s (qbufUsed q) io w = .ok w') :
    ∃ z', w'.mem s = .live z' ∧ z'.node = .linked ∧ z'.type ≠ .server ∧
      RbufHolds z'.rbuf (f.pop io.nr.toInt.toNat) := by
  obtain ⟨q', hq', hcases⟩ := recvDrain_cases hl hz hq hok
  obtain ⟨q₁, hq₁, hbuf, hst, -⟩ := recvConsume_spec h hnr
  obtain rfl : q₁ = q' := Except.ok.inj (hq₁.symm.trans hq')
  have hholds : Holds q₁ (f.pop io.nr.toInt.toNat) := by rw [Holds, hst, hf]; rfl
  have hlt' : qbufUsed q₁ < 2 ^ 31 := by
    rw [← hbuf.valid.length_stored, hst, List.length_drop, h.valid.length_stored]
    omega
  obtain ⟨-, rfl⟩ | ⟨hfull, -, rfl⟩ | ⟨-, -, -, z', same, hrbuf, rfl⟩ := hcases
  · exact ⟨_, World.put_mem_self _ _ _, hn, ht, hbuf, hholds⟩
  · obtain ⟨hbuf', hst'⟩ := hbuf.grow hlt' hfull io.grow
    exact ⟨_, World.put_mem_self _ _ _, hn, ht, hbuf', hst'.trans hholds⟩
  · refine ⟨_, World.put_mem_self _ _ _, same.node.trans hn, ?_, ?_⟩
    · rw [show (z'.closed none).type = z'.type from rfl, same.type]; exact ht
    · rw [show (z'.closed none).rbuf = z'.rbuf from rfl, hrbuf]; exact ⟨hbuf, hholds⟩

/-- **Every run keeps a channel**: what was received was pushed, what was consumed was popped, and
the read buffer holds what is pending. -/
theorem RecvRun.holds {received consumed : List UInt8} (run : RecvRun s w received consumed) :
    ∃ z f, RecvOk w s z f ∧ f.pushed = received ∧ f.popped = consumed := by
  induction run with
  | @opened w z wf live node type rbuf =>
      exact ⟨z, .empty, ⟨wf, live, node, type, by rw [rbuf]; rfl⟩, rfl, rfl⟩
  | @other w w' received consumed run moves ih =>
      obtain ⟨z, f, h, hpushed, hpopped⟩ := ih
      obtain ⟨z', hz', hstays, -⟩ := moves.stays h.live h.node fun hc => hc.1 rfl
      have hrbuf := moves.rbuf_eq h.live h.node (fun hc => hc.1 rfl) (fun a ha => ha.2) hz'
      refine ⟨z', f, ⟨moves.wf h.wf, hz', hstays.node, ?_, ?_⟩, hpushed, hpopped⟩
      · rw [hstays.type]; exact h.type
      · rw [hrbuf]; exact h.holds
  | @call w w' received consumed z io run looping live room bound returns ih =>
      obtain ⟨z₀, f, h, hpushed, hpopped⟩ := ih
      obtain rfl : z = z₀ := Slot.live.inj (live.symm.trans h.live)
      obtain ⟨z₁, hz₁, -, he, -,
        ⟨hs, -⟩ | ⟨-, hb, -⟩ | ⟨-, q, q', cb, buf, len, v, hb, hstore, -, -, hrun,
        hnr, hdrain⟩⟩ := zsocketHandleRecv_cases returns
      all_goals obtain rfl : z = z₁ := Slot.live.inj (live.symm.trans hz₁)
      · exact absurd hs h.type
      · rw [hb] at room; cases room
      · obtain ⟨hbuf, hf⟩ := h.holds.buffer hb
        have hpending : f.pending.length + io.bytes.length < 2 ^ 31 := by
          have hlen := congrArg List.length f.conserved
          rw [List.length_append, hpushed, hpopped] at hlen
          omega
        obtain ⟨hstore', hbuf', hf', hlt⟩ := hbuf.receive hf (fits_of_recvStore hstore) hpending
        obtain rfl : appended q io.bytes = q' := Except.ok.inj (hstore'.symm.trans hstore)
        obtain ⟨-, hv, hvl, x, hx, hxs, hxr, -⟩ := afterScript h.wf looping live h.node he hrun
        obtain ⟨z', hz', hn', ht', hholds⟩ := recvDrain_holds hvl hx hxs.node
          (by rw [hxs.type]; exact h.type) hxr hbuf' hf' hlt hnr hdrain
        refine ⟨z', _,
          ⟨(zsocketHandleRecv_moves h.wf looping live returns).wf h.wf, hz', hn', ht', hholds⟩,
          ?_, ?_⟩
        · rw [Fifo.pop_pushed, Fifo.push_pushed, hpushed]
        · rw [Fifo.pop_popped, Fifo.pending_eq_drop, Fifo.push_pushed, Fifo.push_popped, hpushed,
            hpopped]

/-- **The receive stream is intact.** Whenever `zsocket_handle_recv` is called, `read_cb` is offered
all bytes received so far less those consumed so far, and their number. -/
theorem recv_stream_intact {received consumed : List UInt8} (run : RecvRun s w received consumed)
    {cb : Cb} (live : w.mem s = .live z) (entry : z.RecvEntry) (callback : z.readCb = some cb)
    (room : io.buffer z.rbuf = some q) (fits : io.bytes.length ≤ qbufSpare q)
    (bound : received.length + io.bytes.length < 2 ^ 31 + consumed.length) :
    ∃ q', zsocketHandleRecv s io w = (do
      let backlog := (received ++ io.bytes).drop consumed.length
      let v ← runScript io.script (w.offered s z io (qbufSpare q) q' cb backlog backlog.length)
      ensure (decide (0 ≤ io.nr.toInt)) (.assert .recvCount)
      recvDrain s backlog.length io v) := by
  obtain ⟨z₀, f, h, hpushed, hpopped⟩ := run.holds
  obtain rfl : z = z₀ := Slot.live.inj (live.symm.trans h.live)
  obtain ⟨hbuf, hf⟩ := h.holds.buffer room
  have hpending : f.pending.length + io.bytes.length < 2 ^ 31 := by
    have hlen := congrArg List.length f.conserved
    rw [List.length_append, hpushed, hpopped] at hlen
    omega
  obtain ⟨hstore, hbuf', hf', hlt⟩ := hbuf.receive hf fits hpending
  have hbacklog : stored (appended q io.bytes) = (received ++ io.bytes).drop consumed.length := by
    rw [hf', Fifo.pending_eq_drop, Fifo.push_pushed, Fifo.push_popped, hpushed, hpopped]
  refine ⟨appended q io.bytes, ?_⟩
  rw [zsocketHandleRecv_eq live entry h.type callback room hstore (recvOffer_eq hbuf'.valid hlt),
    hbacklog, ← hbuf'.valid.length_stored, hbacklog]

/-- No callback concerns the read buffer. -/
theorem leavesRbuf_of_scriptMay {script : List Api} {a : Act} (h : scriptMay script a) :
    a.leavesRbuf s := by
  refine ⟨fun hc => not_scriptMay_unlink script s (hc ▸ h), ?_⟩
  obtain ⟨c, -, hc⟩ := h
  rintro (rfl | rfl | rfl | rfl) <;> cases c <;> simp [Api.may] at hc

/-- Calls of the API in the loop are no matter of the receive stream. -/
theorem RecvRun.script {received consumed : List UInt8} {script : List Api}
    (run : RecvRun s w received consumed) (hl : w.inLooping = true)
    (h : runScript script w = .ok w') : RecvRun s w' received consumed := by
  obtain ⟨z, f, hok, -⟩ := run.holds
  exact run.other ((runScript_moves hok.wf hl h).mono fun _ => leavesRbuf_of_scriptMay)

/-- Visits of other sockets are no matter of the receive stream. -/
theorem RecvRun.visit {received consumed : List UInt8} {t : Sid} {y : ZSocket} {R W : Finset ℤ}
    {visit : VisitIo} {b : Bool} (run : RecvRun s w received consumed) (hl : w.inLooping = true)
    (hne : t ≠ s) (hy : w.mem t = .live y) (h : pollVisit R W t visit w = .ok (b, w')) :
    RecvRun s w' received consumed := by
  obtain ⟨z, f, hok, -⟩ := run.holds
  refine run.other ((pollVisit_moves hok.wf hl hy h).mono fun a ha => ?_)
  have elsewhere : a.socket ≠ some s → a.leavesRbuf s := by
    intro hs
    refine ⟨fun hc => hs (by rw [hc]; rfl), ?_⟩
    rintro (rfl | rfl | rfl | rfl) <;> exact hs rfl
  obtain ⟨-, (rfl | rfl | ⟨rfl, -⟩) | ha | ⟨-, rfl | ⟨rfl, -⟩ | ⟨rfl, -⟩⟩⟩ | rfl | rfl | rfl := ha
  case inl.inr.inl => exact leavesRbuf_of_scriptMay ha
  all_goals exact elsewhere (by simp [Act.socket, hne])

/-- A call that receives `bytes` and whose `read_cb` returns `nr`. -/
def RecvIo.chunk (bytes : List UInt8) (nr : BitVec 32) : RecvIo where
  callocSelf := true
  callocRaw := true
  recv := some bytes
  now := 0
  script := []
  nr := nr
  grow := none

/-- Whether the connection `1` can receive `[1, 2, 3]` into a new buffer and then two more bytes. -/
def receivesTwice (w : World) : Bool :=
  w.inLooping && match w.mem 1 with
    | .live z =>
        decide (z.node = .linked ∧ z.type ≠ .server ∧ z.rbuf = none) &&
          match zsocketHandleRecv 1 (.chunk [1, 2, 3] 1) w with
          | .ok w' => match w'.mem 1 with
            | .live y =>
                decide (y.type ≠ .none ∧ y.eof = false ∧ y.readEnable = true ∧ y.readCb = some 5) &&
                  match y.rbuf with
                  | some q => decide (2 ≤ qbufSpare q)
                  | none => false
            | _ => false
          | .error _ => false
    | _ => false

/-- After `[1, 2, 3]` of which one byte was consumed, `read_cb` is offered `[2, 3, 4, 5]`. -/
theorem recv_stream_intact_run : ∃ (w : World) (z : ZSocket) (q q' : QBuf),
    zsocketHandleRecv 1 (.chunk [4, 5] 0) w = (do
      let v ← runScript [] (w.offered 1 z (.chunk [4, 5] 0) (qbufSpare q) q' 5 [2, 3, 4, 5] 4)
      ensure true (.assert .recvCount)
      recvDrain 1 4 (.chunk [4, 5] 0) v) := by
  obtain ⟨c, r, h⟩ := Machine.Reach.of_leadsTo (M := zio)
    (P := fun c => receivesTwice c.world) .init
    (show zio.leadsTo Machine.anyStep _ (readOne 8000 ++ [.loop 1000 (.ready {4} ∅)])
      zio.init = true by decide +kernel)
  obtain ⟨hl, h⟩ := (Bool.and_eq_true _ _).mp h
  split at h
  · next z hz =>
    obtain ⟨hz', h⟩ := (Bool.and_eq_true _ _).mp h
    obtain ⟨hn, ht, hrbuf⟩ := of_decide_eq_true hz'
    split at h
    · next w' hw' =>
      split at h
      · next y hy =>
        obtain ⟨hy', h⟩ := (Bool.and_eq_true _ _).mp h
        obtain ⟨htype, he, hon, hcb⟩ := of_decide_eq_true hy'
        split at h
        · next q hq =>
          have start : RecvRun 1 c.world [] [] := .opened (Sys.sound r).wf hz hn ht hrbuf
          have run := start.call (.chunk [1, 2, 3] 1) hl hz (by rw [hrbuf]; rfl) (by decide) hw'
          obtain ⟨q', heq⟩ := @recv_stream_intact w' 1 y q (.chunk [4, 5] 0) _ _ run 5 hy
            ⟨htype, he, hon⟩ hcb (by rw [hq]; rfl) (of_decide_eq_true h) (by decide)
          exact ⟨w', y, q, q', heq⟩
        · cases h
      · cases h
    · cases h
  · cases h

end LibZio
