import LibZio.Zsocket.Aborts

/-! # What the handlers do

Inversion lemmas for `zsocket_handle_recv` and `zsocket_handle_send`: every way a handler can
return, with the world it returns in. Both are used while the library is looping, so a handler that
closes its socket only flags it. -/

namespace LibZio

variable {w w' : World} {s : Sid} {z : ZSocket}

/-- A socket with a type that is not EOF is on the list. -/
theorem World.WF.linked_of_typed (hw : w.WF) (hz : w.mem s = .live z) (ht : z.type ≠ .none)
    (he : z.eof = false) : z.node = .linked := by
  cases hn : z.node with
  | self => exact absurd (hw.shape_self hz hn).2.2.2.2 ht
  | linked => rfl
  | poisoned => rw [hw.shape_poisoned hz hn] at he; cases he

/-- Writing back what was read changes nothing. -/
theorem World.put_eq_self (hz : w.mem s = .live z) : w.put s z = w := by
  rw [World.put, ← hz, Function.update_eq_self]

/-! ## Entry assertions -/

/-- The assertions at the entry of `zsocket_handle_recv`. -/
structure ZSocket.RecvEntry (z : ZSocket) : Prop where
  type : z.type ≠ .none
  eof : z.eof = false
  enable : z.readEnable = true

/-- The assertions at the entry of `zsocket_handle_send`. -/
structure ZSocket.SendEntry (z : ZSocket) : Prop where
  type : z.type ≠ .none
  eof : z.eof = false
  enable : z.writeEnable = true
  wbuf : z.wbuf.isSome

/-! ## Receiving -/

/-- `rbuf` after its lazy allocation. -/
def RecvIo.buffer (io : RecvIo) (rbuf : Option QBuf) : Option QBuf :=
  match rbuf with
  | some q => some q
  | none => qbufNew READ_BUF_SIZE io.callocSelf io.callocRaw

/-- The fields of a socket after a `recv` that left `rbuf` as `q`. -/
def ZSocket.filled (z : ZSocket) (io : RecvIo) (q : QBuf) : ZSocket :=
  { z with
    state := if io.nrecv = -1 then z.state &&& ZS_S_READ_FAILED else z.state
    rbuf := some q
    tick := io.now }

/-- The world in which `read_cb` is called, after `asked` bytes were asked of `recv`. -/
def World.offered (w : World) (s : Sid) (z : ZSocket) (io : RecvIo) (asked : ℕ) (q : QBuf) (cb : Cb)
    (buf : List UInt8) (len : ℤ) : World :=
  ((w.log (.recv s asked io.nrecv)).put s (z.filled io q)).log (.readCb s cb buf len)

/-- The write of the lazy allocation is covered by that of the `recv`. -/
theorem offered_put {io : RecvIo} {asked : ℕ} {q q' : QBuf} :
    (((w.put s { z with rbuf := some q }).log (.recv s asked io.nrecv)).put s
      (ZSocket.filled { z with rbuf := some q } io q')) =
      (w.log (.recv s asked io.nrecv)).put s (z.filled io q') := by
  simp [World.put, World.log, ZSocket.filled]

/-- The lazy allocation either fails or leaves a buffer. -/
theorem recvAlloc_eq (io : RecvIo) (hz : w.mem s = .live z) :
    recvAlloc s io w = .ok ((io.buffer z.rbuf).map fun q => w.put s { z with rbuf := some q }) := by
  rw [recvAlloc, World.deref_eq_ok.mpr hz, ok_bind]
  cases hq : z.rbuf with
  | some q =>
      have hself : ({ z with rbuf := some q } : ZSocket) = z := by rw [← hq]
      simp only [RecvIo.buffer, Option.map_some, hself, World.put_eq_self hz]
      rfl
  | none =>
      simp only [RecvIo.buffer]
      cases qbufNew READ_BUF_SIZE io.callocSelf io.callocRaw <;> rfl

/-- What `recv` does once there is a buffer. -/
theorem recvFill_eq_ok {io : RecvIo} {q : QBuf} (hz : w.mem s = .live z) (hq : z.rbuf = some q) :
    recvFill s io w = .ok w' ↔
      ∃ q', recvStore q io = .ok q' ∧
        w' = (w.log (.recv s (qbufSpare q) io.nrecv)).put s (z.filled io q') := by
  rw [recvFill, World.deref_eq_ok.mpr hz, ok_bind, hq, orFail_some, ok_bind, bind_eq_ok]
  refine exists_congr fun q' => and_congr_right fun _ => ?_
  rw [ZSocket.filled]
  by_cases hr : io.nrecv = -1
  · simp only [if_pos hr, pure_eq_ok]
    exact eq_comm
  · simp only [if_neg hr, pure_eq_ok]
    exact eq_comm

/-- What `zsocket_handle_recv` does on a client or connection once there is a buffer. -/
theorem zsocketHandleRecv_eq {io : RecvIo} {q q' : QBuf} {cb : Cb} {buf : List UInt8} {len : ℤ}
    (hz : w.mem s = .live z) (entry : z.RecvEntry) (hs : z.type ≠ .server)
    (hcb : z.readCb = some cb)
    (hb : io.buffer z.rbuf = some q) (hstore : recvStore q io = .ok q')
    (hoffer : recvOffer q' = .ok (buf, len)) :
    zsocketHandleRecv s io w = (do
      let v ← runScript io.script (w.offered s z io (qbufSpare q) q' cb buf len)
      ensure (decide (0 ≤ io.nr.toInt)) (.assert .recvCount)
      recvDrain s (qbufUsed q') io v) := by
  rw [zsocketHandleRecv, World.deref_eq_ok.mpr hz, ok_bind, decide_eq_true entry.type, ensure_true,
    ok_bind, entry.eof, Bool.not_false, ensure_true, ok_bind, entry.enable, ensure_true, ok_bind,
    if_neg hs, recvAlloc_eq io hz, ok_bind, hb, Option.map_some]
  dsimp only
  rw [recvDeliver, (recvFill_eq_ok (World.put_mem_self _ _ _) rfl).mpr ⟨q', hstore, rfl⟩, ok_bind,
    offered_put, World.deref_eq_ok.mpr (World.put_mem_self _ _ _), ok_bind,
    show (z.filled io q').readCb = z.readCb from rfl, hcb, orFail_some, ok_bind,
    show (z.filled io q').rbuf = some q' from rfl, orFail_some, ok_bind, hoffer, ok_bind]
  rfl

/-- **The ways `zsocket_handle_recv` returns**: from the callback of a server, without memory for
the buffer, or after the callback and the consumption. -/
theorem zsocketHandleRecv_cases {io : RecvIo} (h : zsocketHandleRecv s io w = .ok w') :
    ∃ z, w.mem s = .live z ∧ z.type ≠ .none ∧ z.eof = false ∧ z.readEnable = true ∧
      ((z.type = .server ∧ ∃ cb, runScript io.script (w.log (.connectionCb s cb)) = .ok w') ∨
        (z.type ≠ .server ∧ io.buffer z.rbuf = none ∧ w' = w) ∨
        (z.type ≠ .server ∧ ∃ q q' cb buf len v, io.buffer z.rbuf = some q ∧
          recvStore q io = .ok q' ∧ z.readCb = some cb ∧ recvOffer q' = .ok (buf, len) ∧
          runScript io.script (w.offered s z io (qbufSpare q) q' cb buf len) = .ok v ∧
          0 ≤ io.nr.toInt ∧ recvDrain s (qbufUsed q') io v = .ok w')) := by
  obtain ⟨z, hz, h⟩ := bind_eq_ok.mp h
  obtain ⟨_, ht, h⟩ := bind_eq_ok.mp h
  obtain ⟨_, he, h⟩ := bind_eq_ok.mp h
  obtain ⟨_, hr, h⟩ := bind_eq_ok.mp h
  rw [World.deref_eq_ok] at hz
  refine ⟨z, hz, by simpa using ht, by simpa using he, by simpa using hr, ?_⟩
  by_cases hs : z.type = .server
  · rw [if_pos hs] at h
    obtain ⟨cb, -, h⟩ := bind_eq_ok.mp h
    exact .inl ⟨hs, cb, h⟩
  · rw [if_neg hs, recvAlloc_eq io hz, ok_bind] at h
    cases hb : io.buffer z.rbuf with
    | none =>
        rw [hb] at h
        cases h
        exact .inr (.inl ⟨hs, rfl, rfl⟩)
    | some q =>
        rw [hb] at h
        obtain ⟨v₁, hfill, h⟩ := bind_eq_ok.mp h
        -- up to the callback everything is known: the world is the one offered to `read_cb`
        obtain ⟨q', hstore, rfl⟩ := (recvFill_eq_ok (World.put_mem_self _ _ _) rfl).mp hfill
        rw [offered_put] at h
        obtain ⟨y, hy, h⟩ := bind_eq_ok.mp h
        obtain rfl := Slot.live.inj
          ((World.put_mem_self _ _ _).symm.trans (World.deref_eq_ok.mp hy))
        obtain ⟨cb, hcb, h⟩ := bind_eq_ok.mp h
        obtain ⟨q₁, hq₁, h⟩ := bind_eq_ok.mp h
        obtain ⟨⟨buf, len⟩, hoffer, h⟩ := bind_eq_ok.mp h
        obtain ⟨v, hscript, h⟩ := bind_eq_ok.mp h
        obtain ⟨_, hnr, h⟩ := bind_eq_ok.mp h
        obtain rfl : q' = q₁ := Option.some.inj (orFail_eq_ok.mp hq₁)
        exact .inr (.inr ⟨hs, q, q', cb, buf, len, v, rfl, hstore, orFail_eq_ok.mp hcb, hoffer,
          hscript, by simpa using hnr, h⟩)

/-- A reallocation that fails leaves the buffer alone. -/
theorem qbufRealloc_failed {q : QBuf} {len : ℕ} {re : Realloc} (h : (qbufRealloc q len re).1 ≠ 0) :
    (qbufRealloc q len re).2 = q := by
  cases re with
  | some fill => exact absurd rfl h
  | none => rfl

/-- **The ways the consumption ends**: there is room, the buffer has grown, or the socket is closed
because the buffer is full and cannot grow. -/
theorem recvDrain_cases {io : RecvIo} {len : ℕ} {q : QBuf} (hl : w.inLooping = true)
    (hz : w.mem s = .live z) (hq : z.rbuf = some q) (h : recvDrain s len io w = .ok w') :
    ∃ q', recvConsume q len io.nr = .ok q' ∧
      ((qbufSpare q' ≠ 0 ∧ w' = w.put s { z with rbuf := some q' }) ∨
        (qbufSpare q' = 0 ∧ (qbufRealloc q' (sizeShl1 (qbufSize q')) io.grow).1 = 0 ∧
          w' = w.put s
            { z with rbuf := some (qbufRealloc q' (sizeShl1 (qbufSize q')) io.grow).2 }) ∨
        (qbufSpare q' = 0 ∧ (qbufRealloc q' (sizeShl1 (qbufSize q')) io.grow).1 ≠ 0 ∧
          World.InRange z.fd ∧ ∃ z', ZSocket.SameControl
            { z with state := z.state &&& ZS_S_RBUF_RUNOUT } z' ∧ z'.rbuf = some q' ∧
            w' = (w.put s z').closedWorld s z' none)) := by
  rw [recvDrain, World.deref_eq_ok.mpr hz, ok_bind, hq, orFail_some, ok_bind] at h
  obtain ⟨q', hc, h⟩ := bind_eq_ok.mp h
  refine ⟨q', hc, ?_⟩
  by_cases hs : qbufSpare q' = 0
  · rw [if_pos hs] at h
    dsimp only at h
    by_cases hrc : (qbufRealloc q' (sizeShl1 (qbufSize q')) io.grow).1 = 0
    · rw [if_neg (not_not_intro hrc)] at h
      cases h
      exact .inr (.inl ⟨hs, hrc, rfl⟩)
    · rw [if_pos hrc] at h
      -- inside the loop the close marks the socket, and does no more
      obtain ⟨y, hy, -, hfd, rfl⟩ := (zsocketCloseWith_looping (by exact hl)).mp h
      obtain rfl := Slot.live.inj ((World.put_mem_self _ _ _).symm.trans hy)
      refine .inr (.inr ⟨hs, hrc, hfd, _, ?_, congrArg some (qbufRealloc_failed hrc), rfl⟩)
      exact ⟨rfl, rfl, rfl, rfl, rfl, rfl, rfl, rfl, rfl⟩
  · rw [if_neg hs] at h
    cases h
    exact .inl ⟨hs, rfl⟩

/-! ## Sending -/

/-- **The ways `zsocket_handle_send` returns**: nothing is pending, the send fails, it fills
nothing, or it takes bytes and leaves the buffer full or not. -/
theorem zsocketHandleSend_cases {io : SendIo} (hl : w.inLooping = true)
    (h : zsocketHandleSend s io w = .ok w') :
    ∃ z q, w.mem s = .live z ∧ z.type ≠ .none ∧ z.eof = false ∧ z.writeEnable = true ∧
      z.wbuf = some q ∧
      ((qbufUsed q = 0 ∧ w' = w) ∨
        (qbufUsed q ≠ 0 ∧ io.getD 0 ≤ qbufUsed q ∧ ∃ offered,
          load q.rawbuf (qbufRawbufOutPos q) (qbufUsed q) = some offered ∧
          ((io.nsend = -1 ∧ World.InRange z.fd ∧ ∃ z', ZSocket.SameControl
              { z with state := z.state &&& ZS_S_WRITE_FAILED } z' ∧
              (z'.rbuf = z.rbuf ∧ z'.wbuf = some q) ∧
              w' = ((w.log (.send s offered io.nsend)).put s z').closedWorld s z' none) ∨
            (io.nsend ≠ -1 ∧ io.nsend ≤ 0 ∧ w' = w.log (.send s offered io.nsend)) ∨
            (0 < io.nsend ∧ ∃ q', sendConsume q io.nsend = .ok q' ∧
              ((qbufSpare q' = 0 ∧ World.InRange z.fd ∧ ∃ z', ZSocket.SameControl
                  { z with state := z.state &&& ZS_S_WBUF_RUNOUT } z' ∧
                  (z'.rbuf = z.rbuf ∧ z'.wbuf = some q') ∧
                  w' = ((w.log (.send s offered io.nsend)).put s z').closedWorld s z' none) ∨
                (qbufSpare q' ≠ 0 ∧ w' =
                  (w.log (.send s offered io.nsend)).put s { z with wbuf := some q' })))))) := by
  obtain ⟨z, hz, h⟩ := bind_eq_ok.mp h
  obtain ⟨_, ht, h⟩ := bind_eq_ok.mp h
  obtain ⟨_, he, h⟩ := bind_eq_ok.mp h
  obtain ⟨_, hen, h⟩ := bind_eq_ok.mp h
  obtain ⟨q, hq, h⟩ := bind_eq_ok.mp h
  rw [World.deref_eq_ok] at hz
  rw [orFail_eq_ok] at hq
  refine ⟨z, q, hz, by simpa using ht, by simpa using he, by simpa using hen, hq, ?_⟩
  by_cases hu : qbufUsed q = 0
  · rw [if_pos hu] at h
    cases h
    exact .inl ⟨hu, rfl⟩
  · rw [if_neg hu] at h
    obtain ⟨offered, hload, h⟩ := bind_eq_ok.mp h
    obtain ⟨_, hle, h⟩ := bind_eq_ok.mp h
    rw [orFail_eq_ok] at hload
    refine .inr ⟨hu, by simpa using hle, offered, hload, ?_⟩
    dsimp only at h
    by_cases hfail : io.nsend = -1
    · rw [if_pos hfail] at h
      obtain ⟨y, hy, -, hfd, rfl⟩ := (zsocketCloseWith_looping (by exact hl)).mp h
      obtain rfl := Slot.live.inj ((World.put_mem_self _ _ _).symm.trans hy)
      exact .inl ⟨hfail, hfd, { z with state := z.state &&& ZS_S_WRITE_FAILED },
        ⟨rfl, rfl, rfl, rfl, rfl, rfl, rfl, rfl, rfl⟩, ⟨rfl, hq⟩, rfl⟩
    · rw [if_neg hfail] at h
      by_cases hpos : io.nsend > 0
      · rw [if_pos hpos] at h
        obtain ⟨q', hc, h⟩ := bind_eq_ok.mp h
        refine .inr (.inr ⟨hpos, q', hc, ?_⟩)
        by_cases hs : qbufSpare q' = 0
        · rw [if_pos hs] at h
          obtain ⟨y, hy, -, hfd, rfl⟩ := (zsocketCloseWith_looping (by exact hl)).mp h
          obtain rfl := Slot.live.inj ((World.put_mem_self _ _ _).symm.trans hy)
          refine .inl ⟨hs, hfd,
            { z with wbuf := some q', state := z.state &&& ZS_S_WBUF_RUNOUT }, ?_, ⟨rfl, rfl⟩, rfl⟩
          exact ⟨rfl, rfl, rfl, rfl, rfl, rfl, rfl, rfl, by rw [hq]; rfl⟩
        · rw [if_neg hs] at h
          cases h
          exact .inr ⟨hs, rfl⟩
      · rw [if_neg hpos] at h
        cases h
        exact .inr (.inl ⟨hfail, by omega, rfl⟩)

end LibZio
