import LibZio.Zsocket.PollSafety
import LibZio.Zsocket.ReceiveStream

/-! # The causes in the state word

`state` has a bit for each failure that makes the library give up a socket. Where it detects one the
code writes `state &= FLAG` in place of `state |= FLAG`, so that no bit of a cause is ever set, and
all other bits are lost: `World.Causeless` is an invariant of every run. EOF is cleared as well, but
set again by the close that follows. -/

namespace LibZio

variable {w w' v : World} {s pos : Sid} {z : ZSocket}

/-- The failures the library detects. -/
inductive Cause
  | readFailed
  | writeFailed
  | rbufRunout
  | wbufRunout
  | timeout
  deriving DecidableEq, Repr

namespace Cause

/-- The bit of `state` for a cause. -/
def bit : Cause → BitVec 32
  | .readFailed => ZS_S_READ_FAILED
  | .writeFailed => ZS_S_WRITE_FAILED
  | .rbufRunout => ZS_S_RBUF_RUNOUT
  | .wbufRunout => ZS_S_WBUF_RUNOUT
  | .timeout => ZS_S_TIMEOUT

/-- The bit that the close adds to which a cause leads. A failed `recv` leads to none. -/
def closes : Cause → BitVec 32
  | .readFailed => 0
  | .writeFailed | .rbufRunout | .wbufRunout | .timeout => ZS_S_EOF

/-- The bits of all causes. -/
def bits : BitVec 32 :=
  ZS_S_READ_FAILED ||| ZS_S_WRITE_FAILED ||| ZS_S_RBUF_RUNOUT ||| ZS_S_WBUF_RUNOUT ||| ZS_S_TIMEOUT

theorem bit_and_bits (cause : Cause) : cause.bit &&& bits = cause.bit := by
  cases cause <;> decide

/-- What is added for a cause never is what the code leaves of a word without causes. -/
theorem word_ne (cause : Cause) {x : BitVec 32} (h : x &&& bits = 0) :
    x &&& cause.bit ||| cause.closes ≠ x ||| cause.bit ||| cause.closes := by
  intro heq
  have hnone : x &&& cause.bit = 0 := by
    rw [← cause.bit_and_bits, BitVec.and_comm cause.bit, ← BitVec.and_assoc, h]
    simp
  have hset : hasFlag (x ||| cause.bit ||| cause.closes) cause.bit = true := by
    rw [hasFlag_or_of_disjoint _ (by cases cause <;> decide)]
    exact hasFlag_or_self _ (by cases cause <;> decide)
  have hclear : hasFlag (x &&& cause.bit ||| cause.closes) cause.bit = false := by
    rw [hnone]
    cases cause <;> decide
  rw [heq, hset] at hclear
  cases hclear

end Cause

/-! ## Where a failure is detected -/

/-- The part of an iteration of `zsocket_do_close` that looks at the timeout. -/
def doCloseTimeout (pos : Sid) (io : CloseIo) (w : World) : Res World := do
  let z ← w.deref pos
  if z.stale io.now then
    zsocketClose pos none (w.put pos { z with state := z.state &&& ZS_S_TIMEOUT })
  else return w

/-- An iteration looks at the timeout first. -/
theorem doCloseVisit_timeout (pos : Sid) (io : CloseIo) (w : World) :
    doCloseVisit pos io w = (do
      let w ← doCloseTimeout pos io w
      let z ← w.deref pos
      if z.eof then doCloseTeardown pos io w else return w) := by
  rw [doCloseVisit, doCloseTimeout, bind_assoc]
  rfl

/-- The step `i` from `c` detects a failure of the socket `s` in the world `v`, from which the code
goes on with `next`. -/
inductive Sys.Detects (c : Sys) (i : Input) : Cause → Sid → World → Res World → Prop
  /-- `recv` returns `-1`. -/
  | readFailed {pos : Sid} {R W : Finset ℤ} {left : ℤ} {io : VisitIo} {z : ZSocket} {v : World}
      (ctl : c.ctl = .poll (some pos) R W left) (input : i = .visit io)
      (live : c.world.mem pos = .live z) (readable : z.fd ∈ R) (entry : z.RecvEntry)
      (type : z.type ≠ .server) (alloc : recvAlloc pos io.recv c.world = .ok (some v))
      (failed : io.recv.nrecv = -1) :
      Detects c i .readFailed pos v (recvFill pos io.recv v)
  /-- The receive buffer is full, and cannot grow. -/
  | rbufRunout {pos : Sid} {R W : Finset ℤ} {left : ℤ} {io : VisitIo} {z : ZSocket} {v : World}
      {q q₁ q₂ : QBuf} {cb : Cb} {buf : List UInt8} {len : ℤ}
      (ctl : c.ctl = .poll (some pos) R W left) (input : i = .visit io)
      (live : c.world.mem pos = .live z) (readable : z.fd ∈ R) (entry : z.RecvEntry)
      (type : z.type ≠ .server) (buffer : io.recv.buffer z.rbuf = some q)
      (stored : recvStore q io.recv = .ok q₁) (callback : z.readCb = some cb)
      (offer : recvOffer q₁ = .ok (buf, len))
      (run : runScript io.recv.script
        (c.world.offered pos z io.recv (qbufSpare q) q₁ cb buf len) = .ok v)
      (count : 0 ≤ io.recv.nr.toInt) (consumed : recvConsume q₁ (qbufUsed q₁) io.recv.nr = .ok q₂)
      (full : qbufSpare q₂ = 0)
      (grow : (qbufRealloc q₂ (sizeShl1 (qbufSize q₂)) io.recv.grow).1 ≠ 0) :
      Detects c i .rbufRunout pos v (recvDrain pos (qbufUsed q₁) io.recv v)
  /-- `send` returns `-1`. -/
  | writeFailed {pos : Sid} {R W : Finset ℤ} {left : ℤ} {io : VisitIo} {z : ZSocket} {v : World}
      {q : QBuf} (ctl : c.ctl = .poll (some pos) R W left) (input : i = .visit io)
      (received : c.world.Received pos R io v) (live : v.mem pos = .live z) (writable : z.fd ∈ W)
      (entry : z.SendEntry) (wbuf : z.wbuf = some q) (pending : qbufUsed q ≠ 0)
      (failed : io.send.nsend = -1) :
      Detects c i .writeFailed pos v (zsocketHandleSend pos io.send v)
  /-- The send buffer is full, with what was sent taken out. -/
  | wbufRunout {pos : Sid} {R W : Finset ℤ} {left : ℤ} {io : VisitIo} {z : ZSocket} {v : World}
      {q q₁ : QBuf} (ctl : c.ctl = .poll (some pos) R W left) (input : i = .visit io)
      (received : c.world.Received pos R io v) (live : v.mem pos = .live z) (writable : z.fd ∈ W)
      (entry : z.SendEntry) (wbuf : z.wbuf = some q) (pending : qbufUsed q ≠ 0)
      (sent : 0 < io.send.nsend) (consumed : sendConsume q (io.send.nsend) = .ok q₁)
      (full : qbufSpare q₁ = 0) :
      Detects c i .wbufRunout pos v (zsocketHandleSend pos io.send v)
  /-- The inactivity timeout of a connection has run out. -/
  | timeout {pos : Sid} {n : Option Sid} {io : CloseIo} {z : ZSocket}
      (ctl : c.ctl = .close (some pos) n) (input : i = .closeVisit io)
      (live : c.world.mem pos = .live z) (stale : z.stale io.now = true) :
      Detects c i .timeout pos c.world (doCloseTimeout pos io c.world)

/-- Every failure that a step detects is recorded: its bit is set, the close adds EOF, and all other
bits of the word are as they were. -/
def Sys.Records (c : Sys) (i : Input) : Prop :=
  ∀ cause s v next, c.Detects i cause s v next →
    ∃ v' z z', next = .ok v' ∧ v.mem s = .live z ∧ v'.mem s = .live z' ∧
      z'.state = z.state ||| cause.bit ||| cause.closes

/-- The step detects no failure. -/
def Sys.Undisturbed (c : Sys) (i : Input) : Prop :=
  ∀ cause s v next, ¬ c.Detects i cause s v next

/-- The flags that are never to be cleared. -/
def stickyFlags : List (BitVec 32) :=
  [ZS_S_EOF, ZS_S_TIMEOUT, ZS_S_READ_FAILED, ZS_S_WRITE_FAILED, ZS_S_RBUF_RUNOUT, ZS_S_WBUF_RUNOUT]

/-- A step clears neither EOF nor the bit of a cause. -/
def Sys.KeepsFlags (c : Sys) (_ : Input) (c' : Sys) : Prop :=
  ∀ s z z', c.world.mem s = .live z → c'.world.mem s = .live z' →
    ∀ flag ∈ stickyFlags, hasFlag z.state flag = true → hasFlag z'.state flag = true

/-! ## No cause is ever set -/

/-- No bit of a cause is set in the state word of a live socket. -/
def World.Causeless (w : World) : Prop :=
  ∀ s z, w.mem s = .live z → z.state &&& Cause.bits = 0

/-- A word without causes keeps none under any mask. -/
theorem and_causeless {x : BitVec 32} (m : BitVec 32) (h : x &&& Cause.bits = 0) :
    x &&& m &&& Cause.bits = 0 := by
  rw [BitVec.and_assoc, BitVec.and_comm m, ← BitVec.and_assoc, h]
  simp

/-- A flag that is no cause can be set. -/
theorem or_causeless {x m : BitVec 32} (h : x &&& Cause.bits = 0) (hm : m &&& Cause.bits = 0) :
    (x ||| m) &&& Cause.bits = 0 := by
  rw [BitVec.and_comm, BitVec.and_or_distrib_left, BitVec.and_comm _ x, BitVec.and_comm _ m, h, hm]
  rfl

/-- A close sets no cause. -/
theorem ZSocket.closed_causeless (h : z.state &&& Cause.bits = 0) (cb : Option Cb) :
    (z.closed cb).state &&& Cause.bits = 0 :=
  or_causeless h (by decide)

/-- Writing a socket without causes. -/
theorem World.Causeless.write {x : Slot} (h : w.Causeless)
    (hmem : ∀ t, t ≠ s → w'.mem t = w.mem t) (hs : w'.mem s = x)
    (hx : ∀ y, x = .live y → y.state &&& Cause.bits = 0) : w'.Causeless := by
  intro t y hy
  by_cases ht : t = s
  · subst ht
    exact hx y (hs.symm.trans hy)
  · exact h t y ((hmem t ht).symm.trans hy)

/-- **No move sets a cause.** -/
theorem Move.causeless {a : Act} (m : Move a w w') (h : w.Causeless) : w'.Causeless := by
  have written : ∀ {s y}, a.socket = some s → w'.mem s = .live y → y.state &&& Cause.bits = 0 →
      w'.Causeless := by
    intro s y hs hy hstate
    refine h.write (fun t ht => m.mem_of_ne fun hc => ht (Option.some.inj (hc.symm.trans hs))) hy ?_
    intro x hx
    cases hx
    exact hstate
  cases m with
  | log | mode => exact h
  | init => exact written rfl (World.put_mem_self _ _ _) (by decide)
  | @«open» _ s y y' fd source live node fresh opened =>
      exact written rfl (World.put_mem_self _ _ _) (by rw [opened.state]; exact h s y live)
  | @watch _ s y cb live =>
      exact written rfl (World.put_mem_self _ _ _) (or_causeless (h s y live) (by decide))
  | @unwatch _ s y live =>
      exact written rfl (World.put_mem_self _ _ _) (and_causeless _ (h s y live))
  | @watchWrite _ s y q live =>
      exact written rfl (World.put_mem_self _ _ _) (or_causeless (h s y live) (by decide))
  | @touch _ s y y' live same | @receive _ s y y' live same =>
      exact written rfl (World.put_mem_self _ _ _) (by rw [same.state]; exact h s y live)
  | @recvFail _ s y y' live node eof same =>
      exact written rfl (World.put_mem_self _ _ _)
        (by rw [same.state]; exact and_causeless _ (h s y live))
  | @close _ s y cb live =>
      exact written rfl (World.put_mem_self _ _ _) (ZSocket.closed_causeless (h s y live) cb)
  | @abandon _ s y y' m live node eof fd mask same
  | @recount _ s y y' m live node eof fd mask same =>
      refine written rfl (World.put_mem_self _ _ _) (ZSocket.closed_causeless ?_ none)
      rw [same.state]
      exact and_causeless _ (h s y live)
  | @unlink _ s y live => exact written rfl (World.put_mem_self _ _ _) (h s y live)
  | @release _ s y live => exact written rfl (World.put_mem_self _ _ _) (h s y live)
  | @«free» _ s y live =>
      have hfreed : (Function.update w.mem s .freed) s = .freed := Function.update_self ..
      exact h.write (fun t ht => Function.update_of_ne ht _ _) hfreed fun _ hc => by cases hc

/-- No sequence of moves sets a cause. -/
theorem Moves.causeless {P : Act → Prop} (m : Moves P w w') (hw : w.WF) (h : w.Causeless) :
    w'.Causeless :=
  m.preserve hw h fun _ _ _ _ hm _ hv => hm.causeless hv

/-! ## What the code does instead -/

/-- Between the two handlers of a visit the library is looping, after moves that the visit may
make. -/
theorem World.Received.moves {R W : Finset ℤ} {left : ℤ} {io : VisitIo} (hw : w.WF)
    (hl : w.inLooping = true) (h : w.Received pos R io v) :
    Moves (Sys.may ⟨.poll (some pos) R W left, w⟩ (.visit io)) w v ∧ v.inLooping = true := by
  obtain ⟨z, hz, ⟨hr, hv⟩ | ⟨-, rfl⟩⟩ := h
  · have hm := zsocketHandleRecv_moves hw hl hz hv
    exact ⟨hm.mono fun a ha => ⟨z, hz, .inl ⟨hr, ha⟩⟩, (hm.inLooping_eq not_recvMay_mode).trans hl⟩
  · exact ⟨.none, hl⟩

/-- **Where a failure is detected the word loses all other bits**, before the close adds EOF. -/
theorem Sys.Detects.word {c : Sys} {i : Input} {cause : Cause} {next : Res World} (hc : c.Sound)
    (h : c.Detects i cause s v next) (hnext : next = .ok w') :
    Moves (c.may i) c.world v ∧ ∃ z z', v.mem s = .live z ∧ w'.mem s = .live z' ∧
      z'.state = z.state &&& cause.bit ||| cause.closes := by
  obtain ⟨ctl, w⟩ := c
  obtain ⟨hw, hp⟩ := hc
  cases h with
  | @readFailed pos R W left io z v hctl input live readable entry type alloc failed =>
      dsimp only at hctl live alloc
      subst hctl input
      have hmap := Except.ok.inj ((recvAlloc_eq io.recv live).symm.trans alloc)
      obtain ⟨q, hq, rfl⟩ := Option.map_eq_some_iff.mp hmap
      obtain ⟨q', -, rfl⟩ := (recvFill_eq_ok (World.put_mem_self _ _ _) rfl).mp hnext
      refine ⟨.one ⟨z, live, .inl ⟨readable, .inl (.inr (.inl rfl))⟩⟩
        (.receive live ⟨rfl, rfl, rfl, rfl, rfl, rfl, rfl, rfl, rfl⟩), _, _,
        World.put_mem_self _ _ _, World.put_mem_self _ _ _, ?_⟩
      rw [ZSocket.filled, if_pos failed]
      exact (BitVec.or_zero).symm
  | @rbufRunout pos R W left io z v q q₁ q₂ cb buf len hctl input live readable entry type
      buffer stored callback offer run count consumed full grow =>
      dsimp only at hctl live run
      subst hctl input
      have hn := hw.linked_of_typed live entry.type entry.eof
      have hhead : Moves (recvHeadMay s io.recv) w
          (w.offered s z io.recv (qbufSpare q) q₁ cb buf len) := offered_moves live hn entry.eof
      obtain ⟨hscript, -, hvl, y, hy, -, hyq, -⟩ := afterScript hw hp.1 live hn entry.eof run
      refine ⟨(hhead.mono fun a ha => ⟨z, live, .inl ⟨readable, .inl ha⟩⟩).append
        (hscript.mono fun a ha => ⟨z, live, .inl ⟨readable, .inr (.inl ha)⟩⟩), y, ?_⟩
      obtain ⟨q₃, hq₃, ⟨hspare, -⟩ | ⟨-, hgrown, -⟩ | ⟨-, -, -, y', same, -, rfl⟩⟩ :=
        recvDrain_cases hvl hy hyq hnext
      · obtain rfl : q₂ = q₃ := Except.ok.inj (consumed.symm.trans hq₃)
        exact absurd full hspare
      · obtain rfl : q₂ = q₃ := Except.ok.inj (consumed.symm.trans hq₃)
        exact absurd hgrown grow
      · refine ⟨_, hy, World.put_mem_self _ _ _, ?_⟩
        rw [ZSocket.closed, same.state]
        rfl
  | @writeFailed pos R W left io z v q hctl input received live writable entry wbuf pending
      failed =>
      dsimp only at hctl received
      subst hctl input
      obtain ⟨hm, hvl⟩ := @World.Received.moves _ _ _ R W left io hw hp.1 received
      refine ⟨hm, z, ?_⟩
      obtain ⟨y, q', hy, -, -, -, hyq, ⟨hempty, -⟩ | ⟨-, -, offered, -, ⟨-, -, y', same, -, rfl⟩ |
        ⟨hno, -⟩ | ⟨hsent, -⟩⟩⟩ := zsocketHandleSend_cases hvl hnext
      · obtain rfl : z = y := Slot.live.inj (live.symm.trans hy)
        obtain rfl : q = q' := Option.some.inj (wbuf.symm.trans hyq)
        exact absurd hempty pending
      · obtain rfl : z = y := Slot.live.inj (live.symm.trans hy)
        refine ⟨_, live, World.put_mem_self _ _ _, ?_⟩
        rw [ZSocket.closed, same.state]
        rfl
      · exact absurd failed hno
      · rw [failed] at hsent
        exact absurd hsent (by decide)
  | @wbufRunout pos R W left io z v q q₁ hctl input received live writable entry wbuf pending sent
      consumed full =>
      dsimp only at hctl received
      subst hctl input
      obtain ⟨hm, hvl⟩ := @World.Received.moves _ _ _ R W left io hw hp.1 received
      refine ⟨hm, z, ?_⟩
      obtain ⟨y, q', hy, -, -, -, hyq, ⟨hempty, -⟩ | ⟨-, -, offered, -, ⟨hfail, -⟩ | ⟨-, hnone, -⟩ |
        ⟨-, q₂, hq₂, ⟨-, -, y', same, -, rfl⟩ | ⟨hspare, -⟩⟩⟩⟩ := zsocketHandleSend_cases hvl hnext
      all_goals obtain rfl : z = y := Slot.live.inj (live.symm.trans hy)
      all_goals obtain rfl : q = q' := Option.some.inj (wbuf.symm.trans hyq)
      · exact absurd hempty pending
      · rw [hfail] at sent
        exact absurd sent (by decide)
      · omega
      · refine ⟨_, live, World.put_mem_self _ _ _, ?_⟩
        rw [ZSocket.closed, same.state]
        rfl
      · obtain rfl : q₁ = q₂ := Except.ok.inj (consumed.symm.trans hq₂)
        exact absurd full hspare
  | @timeout pos n io z hctl input live stale =>
      dsimp only at hctl live
      subst hctl input
      refine ⟨.none, z, ?_⟩
      rw [doCloseTimeout, World.deref_eq_ok.mpr live, ok_bind, if_pos stale] at hnext
      obtain ⟨-, rfl⟩ := (zsocketClose_timedOut hp.1).mp hnext
      exact ⟨_, live, World.put_mem_self _ _ _, rfl⟩

/-! ## Runs -/

/-- The machine is sound, and no cause is set. -/
structure Sys.Causeless (c : Sys) : Prop where
  sound : c.Sound
  causeless : c.world.Causeless

/-- Every step keeps it. -/
theorem Sys.Causeless.step {c c' : Sys} {i : Input} (hc : c.Causeless) (h : c.step i = .ok c') :
    c'.Causeless := by
  obtain ⟨hm, hsound⟩ := Sys.step_moves hc.sound h
  exact ⟨hsound, hm.causeless hc.sound.wf hc.causeless⟩

theorem Sys.Causeless.initial : zio.init.Causeless :=
  ⟨⟨World.WF.initial, by exact trivial⟩, fun _ _ h => nomatch h⟩

/-- A step records the failures it detects only if there are none. -/
theorem Sys.Causeless.undisturbed {c : Sys} {i : Input} (hc : c.Causeless) (h : c.Records i) :
    c.Undisturbed i := by
  intro cause s v next hdetects
  obtain ⟨v', z, z', hnext, hz, hz', hlaw⟩ := h cause s v next hdetects
  obtain ⟨hm, y, y', hy, hy', hword⟩ := hdetects.word hc.sound hnext
  obtain rfl : z = y := Slot.live.inj (hz.symm.trans hy)
  obtain rfl : z' = y' := Slot.live.inj (hz'.symm.trans hy')
  exact cause.word_ne (hm.causeless hc.sound.wf hc.causeless s z hz) (hword.symm.trans hlaw)

/-- Every step keeps EOF, and there is no cause for it to clear. -/
theorem Sys.Causeless.keepsFlags {c c' : Sys} {i : Input} (hc : c.Causeless)
    (h : c.step i = .ok c') : c.KeepsFlags i c' := by
  intro s z z' hz hz' flag hflag hset
  rw [stickyFlags, List.mem_cons] at hflag
  obtain rfl | hflag := hflag
  · obtain hfreed | ⟨y, hy, he⟩ := (Sys.step_moves hc.sound h).1.still_over (.inr ⟨z, hz, hset⟩)
    · rw [hz'] at hfreed
      cases hfreed
    · obtain rfl : z' = y := Slot.live.inj (hz'.symm.trans hy)
      exact he
  · have hbits : flag &&& Cause.bits = flag := by
      simp only [List.mem_cons, List.not_mem_nil, or_false] at hflag
      obtain rfl | rfl | rfl | rfl | rfl := hflag <;> decide
    have hnone : z.state &&& flag = 0 := by
      rw [← hbits, BitVec.and_comm flag, ← BitVec.and_assoc, hc.causeless s z hz]
      simp
    rw [hasFlag, hnone] at hset
    cases hset

/-- **When the causes are recorded.** In every run each failure that is detected is recorded by its
bit, and by nothing but its bit and EOF, and no flag for a failure and no EOF is cleared, exactly
when no failure is ever detected. -/
theorem causes_recorded_iff (is : List Input) :
    (zio.Meets Sys.Records is zio.init ∧ zio.Throughout Sys.KeepsFlags is zio.init) ↔
      zio.Meets Sys.Undisturbed is zio.init := by
  constructor
  · rintro ⟨records, -⟩
    exact records.imp (I := Sys.Causeless) (fun _ _ hc h => hc.undisturbed h)
      (fun _ _ _ hc h => hc.step h)
      .initial
  · intro undisturbed
    refine ⟨undisturbed.imp (I := fun _ => True) (fun c i _ h cause s v next hdetects => ?_)
      (fun _ _ _ _ _ => trivial) trivial, ?_⟩
    · exact absurd hdetects (h cause s v next)
    · exact Machine.throughout_of_meets (I := Sys.Causeless) (G := Machine.anyStep)
        (fun _ _ _ hc _ h => ⟨hc.keepsFlags h, hc.step h⟩) .initial (Machine.meets_anyStep _ _)

/-- A test of the socket that the poll is about to visit, and of the descriptors that are
readable. -/
def Sys.visiting (c : Sys) (p : Sid → ZSocket → Finset ℤ → Bool) : Bool :=
  match c.ctl with
  | .poll (some pos) R _ _ =>
      match c.world.mem pos with
      | .live z => p pos z R
      | _ => false
  | _ => false

theorem Sys.visiting_iff {c : Sys} {p : Sid → ZSocket → Finset ℤ → Bool} :
    c.visiting p = true ↔ ∃ pos R W left z, c.ctl = .poll (some pos) R W left ∧
      c.world.mem pos = .live z ∧ p pos z R = true := by
  rw [Sys.visiting]
  split
  · next pos R W left hctl =>
    cases hz : c.world.mem pos <;> simp_all
  · next hno => simp_all

/-- The `recv` of a connection that is read from fails. Its word, which was `ZS_S_READ_ENABLE`, is
`0` afterwards. -/
theorem failed_recv_not_recorded : ∃ (c : Sys) (v v' : World) (z z' : ZSocket),
    zio.run (readOne 8000 ++ [.loop 1000 (.ready {4} ∅)]) zio.init = .ok c ∧
      c.Detects (.visit (.failing [])) .readFailed 1 v (.ok v') ∧
      v.mem 1 = .live z ∧ z.state = ZS_S_READ_ENABLE ∧ v'.mem 1 = .live z' ∧ z'.state = 0 ∧
      ¬ (zio.Meets Sys.Records (recvFails []) zio.init ∧
        zio.Throughout Sys.KeepsFlags (recvFails []) zio.init) := by
  have hrun : (match zio.run (readOne 8000 ++ [.loop 1000 (.ready {4} ∅)]) zio.init with
      | .ok c => c.visiting fun pos z R => decide (pos = 1 ∧ z.fd ∈ R ∧ z.type = .connection ∧
          z.eof = false ∧ z.readEnable = true ∧ z.state = ZS_S_READ_ENABLE ∧ z.rbuf = none)
      | .error _ => false) = true := by decide +kernel
  split at hrun
  · next c h =>
    obtain ⟨pos, R, W, left, z, hctl, hz, hfields⟩ := Sys.visiting_iff.mp hrun
    obtain ⟨rfl, hread, htype, he, hen, hstate, hrbuf⟩ := of_decide_eq_true hfields
    obtain ⟨q, hq⟩ : ∃ q, qbufNew READ_BUF_SIZE true true = some q := ⟨_, rfl⟩
    have hbuffer : (VisitIo.failing []).recv.buffer z.rbuf = some q := by rw [hrbuf]; exact hq
    have halloc := recvAlloc_eq (VisitIo.failing []).recv hz
    rw [hbuffer, Option.map_some] at halloc
    have hlive :
        (c.world.put 1 { z with rbuf := some q }).mem 1 = .live { z with rbuf := some q } :=
      World.put_mem_self _ _ _
    have hstore := @recvStore_eq q (VisitIo.failing []).recv (qbufNew_spec (by decide) hq).1
      (Nat.zero_le _) (by decide)
    have hfill := (recvFill_eq_ok hlive rfl).mpr ⟨_, hstore, rfl⟩
    have hdetects := Sys.Detects.readFailed hctl rfl hz hread ⟨by rw [htype]; decide, he, hen⟩
      (by rw [htype]; decide) halloc rfl
    rw [hfill] at hdetects
    -- the bit of `ZS_S_READ_ENABLE` is lost, and that of `ZS_S_READ_FAILED` is not set
    have hlost : z.state &&& ZS_S_READ_FAILED = 0 := by rw [hstate]; decide
    refine ⟨c, _, _, _, _, h, hdetects, hlive, hstate, World.put_mem_self _ _ _, hlost, ?_⟩
    rintro ⟨records, -⟩
    have hmeets : zio.Meets Sys.Records
        ((readOne 8000 ++ [.loop 1000 (.ready {4} ∅)]) ++ [.visit (.failing [])]) zio.init := by
      rw [List.append_assoc]
      exact records
    obtain ⟨v', y, y', hnext, hy, hy', hlaw⟩ := hmeets.last h _ _ _ _ hdetects
    cases hnext
    obtain rfl := Slot.live.inj (hlive.symm.trans hy)
    obtain rfl := Slot.live.inj ((World.put_mem_self _ _ _).symm.trans hy')
    have hword : (0 : BitVec 32) = z.state ||| ZS_S_READ_FAILED ||| 0 := hlost.symm.trans hlaw
    rw [hstate] at hword
    exact absurd hword (by decide)
  · cases hrun

end LibZio
