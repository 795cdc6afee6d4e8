import LibZio.Zsocket.ReceiveSpace

/-! # The length offered to `read_cb`

`zsocket_handle_recv` counts the bytes it holds in a `size_t`, and passes the count to `read_cb` as
an `int`. A full buffer is doubled, and nothing limits the doubling: a peer whose bytes are not
consumed brings the backlog to `2 ^ 31` bytes, and the `int` is negative from there on. In every run
the length offered is right exactly as long as no backlog gets that far (`read_cb_length_iff`). -/

namespace LibZio

variable {w w' : World} {s t pos : Sid} {z : ZSocket} {q q' : QBuf} {io : RecvIo} {c c' : Sys}
  {i : Input}

/-- What the `recv` of an input returns fits in an `int`. -/
def Input.recvInt : Input → Prop
  | .visit io => io.recv.bytes.length < 2 ^ 31
  | _ => True

instance (i : Input) : Decidable i.recvInt := by
  unfold Input.recvInt
  split <;> infer_instance

/-- Whether `zsocket_handle_recv` is called on the socket and gets past its assertions to a
`recv`. -/
def ZSocket.receives (z : ZSocket) (fdsRead : Finset ℤ) : Bool :=
  decide (World.InRange z.fd ∧ z.fd ∈ fdsRead) && decide (z.type ≠ .none) && !z.eof &&
    z.readEnable && decide (z.type ≠ .server) && z.readCb.isSome

/-- The buffer that a visit receives into before it calls `read_cb`, with what the outside answers,
if the visit gets there. The kernel returns at most what it was asked for. -/
def Sys.receiving (c : Sys) : Input → Option (QBuf × RecvIo)
  | .visit io =>
      match c.ctl with
      | .poll (some pos) fdsRead _ _ =>
          match c.world.mem pos with
          | .live z =>
              match io.recv.buffer z.rbuf with
              | some rbuf =>
                  if z.receives fdsRead ∧ io.recv.bytes.length ≤ qbufSpare rbuf then
                    some (rbuf, io.recv)
                  else none
              | none => none
          | _ => none
      | _ => none
  | _ => none

/-- The `int` that a step offers to `read_cb` is not negative, and is the number of bytes stored. -/
def OffersLength (c : Sys) (i : Input) : Prop :=
  ∀ a ∈ c.receiving i, ∀ rbuf buf len, recvStore a.1 a.2 = .ok rbuf →
    recvOffer rbuf = .ok (buf, len) → 0 ≤ len ∧ len = qbufUsed rbuf

/-- The bytes stored and those received by a step are fewer than `2 ^ 31` together. -/
def BacklogFits (c : Sys) (i : Input) : Prop :=
  ∀ a ∈ c.receiving i, qbufUsed a.1 + a.2.bytes.length < 2 ^ 31

instance (c : Sys) (i : Input) : Decidable (BacklogFits c i) :=
  inferInstanceAs (Decidable (∀ a ∈ c.receiving i, qbufUsed a.1 + a.2.bytes.length < 2 ^ 31))

/-! ## One call -/

/-- When a visit receives. -/
theorem ZSocket.receives_iff {R : Finset ℤ} :
    z.receives R = true ↔
      World.InRange z.fd ∧ z.fd ∈ R ∧ z.RecvEntry ∧ z.type ≠ .server ∧ z.readCb.isSome = true := by
  simp only [ZSocket.receives, Bool.and_eq_true, decide_eq_true_eq, Bool.not_eq_true']
  exact ⟨
    fun ⟨⟨⟨⟨⟨⟨hrange, hmem⟩, ht⟩, he⟩, hon⟩, hs⟩, hcb⟩ => ⟨hrange, hmem, ⟨ht, he, hon⟩, hs, hcb⟩,
    fun ⟨hrange, hmem, ⟨ht, he, hon⟩, hs, hcb⟩ => ⟨⟨⟨⟨⟨⟨hrange, hmem⟩, ht⟩, he⟩, hon⟩, hs⟩, hcb⟩⟩

/-- What a visit receives into. -/
theorem Sys.receiving_eq_some :
    c.receiving i = some (q, io) ↔ ∃ pos R W left send z, c.ctl = .poll (some pos) R W left ∧
      i = .visit ⟨io, send⟩ ∧ c.world.mem pos = .live z ∧ z.receives R = true ∧
      io.buffer z.rbuf = some q ∧ io.bytes.length ≤ qbufSpare q := by
  constructor
  · intro h
    unfold Sys.receiving at h
    split at h
    · split at h
      · split at h
        · split at h
          · split at h
            · next hif =>
              cases h
              exact ⟨_, _, _, _, _, _, ‹_›, rfl, ‹_›, hif.1, ‹_›, hif.2⟩
            · cases h
          · cases h
        · cases h
      · cases h
    · cases h
  · rintro ⟨pos, R, W, left, send, z, hctl, rfl, live, reads, room, fits⟩
    simp only [Sys.receiving, hctl, live, room]
    exact if_pos ⟨reads, fits⟩

/-- There `read_cb` is called. -/
theorem Sys.read_cb_called {buf : List UInt8} {len : ℤ} (h : c.receiving i = some (q, io))
    (hstore : recvStore q io = .ok q') (hoffer : recvOffer q' = .ok (buf, len)) :
    ∃ pos z cb, zsocketHandleRecv pos io c.world = (do
      let v ← runScript io.script (c.world.offered pos z io (qbufSpare q) q' cb buf len)
      ensure (decide (0 ≤ io.nr.toInt)) (.assert .recvCount)
      recvDrain pos (qbufUsed q') io v) := by
  obtain ⟨pos, R, W, left, send, z, -, -, live, reads, room, -⟩ := Sys.receiving_eq_some.mp h
  obtain ⟨-, -, entry, client, hcb⟩ := ZSocket.receives_iff.mp reads
  obtain ⟨cb, hcb⟩ := Option.isSome_iff_exists.mp hcb
  exact ⟨pos, z, cb, zsocketHandleRecv_eq live entry client hcb room hstore hoffer⟩

/-- The number of bytes stored behind a `recv`. -/
theorem qbufUsed_appended (h : q.Valid) {bytes : List UInt8} (hfit : bytes.length ≤ qbufSpare q) :
    qbufUsed (appended q bytes) = qbufUsed q + bytes.length := by
  rw [← (h.append hfit).length_stored, stored_appended h, List.length_append, h.length_stored]

/-- The offer is what is stored, with its length as an `int`. -/
theorem recvOffer_valid (h : q.Valid) : recvOffer q = .ok (stored q, intOfSize (qbufUsed q)) := by
  rw [recvOffer, h.load_stored, orFail_some, ok_bind]
  rfl

/-- **One offer.** The length is right if and only if the backlog is shorter than `2 ^ 31`. -/
theorem recvOffer_length_iff (h : q.Valid) (hfit : io.bytes.length ≤ qbufSpare q)
    (hlt : io.bytes.length < 2 ^ 31) :
    (∀ rbuf buf len, recvStore q io = .ok rbuf → recvOffer rbuf = .ok (buf, len) →
      0 ≤ len ∧ len = qbufUsed rbuf) ↔ qbufUsed q + io.bytes.length < 2 ^ 31 := by
  have hv := h.append hfit
  have hoffer := recvOffer_valid hv
  rw [← qbufUsed_appended h hfit, ← intOfSize_eq_iff]
  constructor
  · exact fun hall => (hall _ _ _ (recvStore_eq h hfit hlt) hoffer).2
  · intro heq rbuf buf len hstore hbuf
    obtain rfl : appended q io.bytes = rbuf :=
      Except.ok.inj ((recvStore_eq h hfit hlt).symm.trans hstore)
    rw [hoffer] at hbuf
    cases hbuf
    exact ⟨by rw [heq]; exact Int.natCast_nonneg _, heq⟩

/-! ## Runs -/

/-- No backlog of a socket that was offered reached `B`. -/
def World.Below (w : World) (B : ℕ) : Prop := ∀ t, peakBacklog t w.trace < B

/-- What receives nothing offers nothing. -/
theorem World.Below.unread {B : ℕ} (h : w.Below B) (hu : w.Unread w') : w'.Below B := by
  intro t
  rw [← peakBacklog_filter, hu.trace, peakBacklog_filter]
  exact h t

/-- The consumption offers nothing. -/
theorem World.Below.drain {B : ℕ} (h : w.Below B) (hl : w.inLooping = true) (hz : w.mem s = .live z)
    (hq : z.rbuf = some q) {len : ℕ} (hok : recvDrain s len io w = .ok w') : w'.Below B := by
  obtain ⟨q', -, ⟨-, rfl⟩ | ⟨-, -, rfl⟩ | ⟨-, -, -, z', -, -, rfl⟩⟩ := recvDrain_cases hl hz hq hok
  · exact h
  · exact h
  · have hput : (w.put s z').Below B := h
    exact hput.unread (.closedWorld (World.put_mem_self _ _ _))

/-- **A receive handler** offers what is stored behind the `recv`, and nothing else. -/
theorem World.Below.recv {B : ℕ} (h : w.Below B) (hw : w.WF) (hl : w.inLooping = true)
    (hz : w.mem s = .live z)
    (fits : z.type ≠ .none → z.eof = false → z.readEnable = true → z.type ≠ .server →
      z.readCb.isSome = true → ∀ q q', io.buffer z.rbuf = some q → recvStore q io = .ok q' →
      qbufUsed q' < B)
    (hok : zsocketHandleRecv s io w = .ok w') : w'.Below B := by
  obtain ⟨z', hz', ht, he, hon,
    ⟨-, cb, hrun⟩ | ⟨-, -, rfl⟩ | ⟨hs, q, q', cb, buf, len, v, hb, hstore, hcb,
    hoffer, hrun, -, hdrain⟩⟩ := zsocketHandleRecv_cases hok
  · have hlog : Move .log w (w.log (.connectionCb s cb)) := .log _ trivial
    exact h.unread ((World.Unread.log rfl).trans (runScript_unread (hlog.wf hw) hrun))
  · exact h
  · obtain rfl : z' = z := Slot.live.inj (hz'.symm.trans hz)
    have hn := hw.linked_of_typed hz ht he
    have hlt := fits ht he hon hs (by rw [hcb]; rfl) q q' hb hstore
    have hoffered : (w.offered s z' io (qbufSpare q) q' cb buf len).Below B := by
      intro t
      obtain ⟨buf', hload, hbuf⟩ := bind_eq_ok.mp hoffer
      cases hbuf
      have hlen := length_of_load (orFail_eq_ok.mp hload)
      change peakBacklog t (.readCb s cb buf _ :: .recv s _ _ :: w.trace) < B
      rw [peakBacklog]
      split
      · exact max_lt (hlen ▸ hlt) (h t)
      · exact h t
    obtain ⟨-, -, hvl, y, hy, -, hyq, -⟩ := afterScript hw hl hz hn he hrun
    have hu := runScript_unread ((offered_moves hz hn he).wf hw) hrun
    exact (hoffered.unread hu).drain hvl hy hyq hdrain

/-- What is kept in a run whose backlogs stay short: the buffers have room and are within their
peaks, and the peaks are short. -/
structure Sys.ShortBacklogs (c : Sys) : Prop where
  sound : c.Sound
  recv : c.world.RecvSound ∧ ∀ t, c.world.RoomAt t
  below : c.world.Below (2 ^ 31)

namespace Sys.ShortBacklogs

/-- At the start. -/
theorem init : zio.init.ShortBacklogs where
  sound := Sys.sound (G := Machine.anyStep) .init
  recv := Sys.recvSound .init
  below _ := Nat.two_pow_pos 31

/-- What is received into is a valid buffer. -/
theorem valid (h : c.ShortBacklogs) (hr : c.receiving i = some (q, io)) :
    q.Valid ∧ io.bytes.length ≤ qbufSpare q := by
  obtain ⟨pos, R, W, left, send, z, -, rfl, live, reads, room, fits⟩ := Sys.receiving_eq_some.mp hr
  obtain ⟨-, -, entry, -⟩ := ZSocket.receives_iff.mp reads
  exact ⟨(h.recv.1.buffer (h.recv.2 pos) live entry.eof room).1.valid, fits⟩

/-- **One step** offers the right length if and only if the backlog fits. -/
theorem offersLength_iff (h : c.ShortBacklogs) (hi : i.recvInt) :
    OffersLength c i ↔ BacklogFits c i := by
  refine forall_congr' fun ⟨q, io⟩ => forall_congr' fun hr => ?_
  obtain ⟨hv, hfit⟩ := h.valid hr
  obtain ⟨pos, R, W, left, send, z, -, rfl, -⟩ := Sys.receiving_eq_some.mp hr
  exact recvOffer_length_iff hv hfit hi

/-- The buffers are far below the bound of the model. -/
theorem recvFits (h : c.ShortBacklogs) (hi : i.recvInt) : c.recvFits i = true := by
  unfold Sys.recvFits
  split
  · next pos R W left io hctl =>
    refine (Bool.and_eq_true _ _).mpr ⟨decide_eq_true hi, ?_⟩
    rw [World.check]
    split
    · next z hz =>
      split
      · next q hq =>
        have hpeak := h.below pos
        refine decide_eq_true ?_
        obtain hsize | hsize := (h.recv.1.space pos z q hz hq).size
        · rw [hsize]; decide
        · omega
      · rfl
    · rfl
  · rfl

/-- **A step whose backlog fits** keeps the backlogs short. -/
theorem step (h : c.ShortBacklogs) (hi : i.recvInt) (hfits : BacklogFits c i)
    (hok : c.step i = .ok c') : c'.ShortBacklogs := by
  refine ⟨(Sys.step_moves h.sound hok).2,
    Sys.recvSound_step h.sound h.recv.1 h.recv.2 (h.recvFits hi) hok, ?_⟩
  obtain hu | ⟨pos, R, W, left, io, b, hctl, rfl, hl, run⟩ := Sys.unread_or_visit h.sound hok
  · exact h.below.unread hu
  have hw := h.sound.wf
  obtain ⟨z, v, y, hz, hrange, hrecv, -, -, hsend, -⟩ := pollVisit_cases run
  obtain ⟨hvl, hv⟩ : v.inLooping = true ∧ v.Below (2 ^ 31) := by
    obtain ⟨hmem, hrun⟩ | ⟨-, rfl⟩ := hrecv
    · have hm := zsocketHandleRecv_moves hw hl hz hrun
      refine ⟨(hm.inLooping_eq not_recvMay_mode).trans hl, h.below.recv hw hl hz ?_ hrun⟩
      intro ht he hon hs hcb q q' room hstore
      have hfit := fits_of_recvStore hstore
      have hr : c.receiving (.visit io) = some (q, io.recv) := Sys.receiving_eq_some.mpr
        ⟨pos, R, W, left, io.send, z, hctl, rfl, hz,
          ZSocket.receives_iff.mpr ⟨hrange, hmem, ⟨ht, he, hon⟩, hs, hcb⟩, room, hfit⟩
      have hq := (h.valid hr).1
      obtain rfl : appended q io.recv.bytes = q' :=
        Except.ok.inj ((recvStore_eq hq hfit hi).symm.trans hstore)
      rw [qbufUsed_appended hq hfit]
      exact hfits _ hr
    · exact ⟨hl, h.below⟩
  obtain ⟨-, hrun⟩ | ⟨-, rfl⟩ := hsend
  · exact hv.unread (zsocketHandleSend_unread hvl hrun)
  · exact hv

end Sys.ShortBacklogs

/-- **The length offered to `read_cb`.** In a run in which every `recv` returns an `int`, the length
offered to `read_cb` is never negative, and always the number of bytes stored, if and only if no
backlog reaches `2 ^ 31` bytes. -/
theorem read_cb_length_iff (is : List Input) (recvs : ∀ i ∈ is, i.recvInt) :
    zio.Meets OffersLength is zio.init ↔ zio.Meets BacklogFits is zio.init :=
  Machine.meets_iff_meets (I := Sys.ShortBacklogs) (B := fun _ => Input.recvInt)
    (fun _ _ h => h.offersLength_iff) (fun _ _ _ h => h.step)
    (Machine.meets_of_forall recvs _) .init

theorem read_cb_length_three : zio.Meets OffersLength receiveThree zio.init :=
  (read_cb_length_iff receiveThree (by decide)).mpr <|
    Machine.meets_of_leadsTo (P := fun _ => true) (by decide +kernel)

/-! ## A flood -/

/-- A visit that receives `n` bytes, of which none is consumed, and that can grow the buffer. -/
def gulp (n : ℕ) : VisitIo where
  recv :=
    { callocSelf := true, callocRaw := true, recv := some (List.replicate n 0), now := 0,
      script := [], nr := 0, grow := some fun _ => 0 }
  send := none

/-- A call of `zsocket_loop` in which the one socket, with descriptor `3`, receives `n` bytes. -/
def gulpRound (n : ℕ) : List Input :=
  [.loop 1000 (.ready {3} ∅), .visit (gulp n), .closeVisit ⟨0, []⟩, .endClose]

/-- A program connects the socket `0`, which gets the descriptor `3`, and reads from it. The peer
then fills the buffer `n + 1` times. -/
def flood : ℕ → List Input
  | 0 =>
      [.call (.init 0), .call (.connect 0 ⟨0, 8000⟩ none ⟨some 3, true, ⟨0, 4000⟩, 0⟩),
        .call (.readStart 0 (some 5))] ++ gulpRound 8192
  | n + 1 => flood n ++ gulpRound (8192 * 2 ^ n)

/-- The one socket is a client that waits for bytes, and they go into the buffer `q`. -/
structure World.Drinks (w : World) (q : QBuf) : Prop where
  socks : w.socks = [0]
  watched : (3 : ℤ) ∈ w.fdsRead
  top : 3 < w.nfdsRead
  sock : ∃ z, w.mem 0 = .live z ∧ z.fd = 3 ∧ z.type = .client ∧ z.RecvEntry ∧ z.readCb = some 5 ∧
    z.node = .linked ∧ (gulp 0).recv.buffer z.rbuf = some q

/-- A buffer of the size `m` with `n` bytes of spare space, in which nothing has been consumed. -/
structure QBuf.Unconsumed (q : QBuf) (n m : ℕ) : Prop where
  valid : q.Valid
  out : q.offsetOut = 0
  spare : qbufSpare q = n
  size : q.size = m

/-- A `read_cb` that returns `0` consumes nothing. -/
theorem recvConsume_nothing (q : QBuf) (len : ℕ) : recvConsume q len 0 = .ok q := by
  have hzero : (if sizeOfInt (0 : BitVec 32).toInt > len then intOfSize len
      else (0 : BitVec 32).toInt) = 0 := if_neg (Nat.not_lt_zero len)
  rw [recvConsume, hzero]
  rfl

/-- A full buffer is doubled. -/
theorem recvDrain_gulp {n m : ℕ} (h : q.Unconsumed n m) (hm : m < 2 ^ 62) (hz : w.mem s = .live z)
    (hq : z.rbuf = some (appended q (List.replicate n 0))) (len : ℕ) :
    ∃ q', recvDrain s len (gulp n).recv w = .ok (w.put s { z with rbuf := some q' }) ∧
      q'.Unconsumed m (2 * m) := by
  have hspare := h.valid.spare_eq
  have hn := h.spare
  have hsize := h.size
  have hin := h.valid.in_le
  have hv : (appended q (List.replicate n 0)).Valid :=
    h.valid.append (by rw [List.length_replicate]; omega)
  have hoff : (appended q (List.replicate n 0)).offsetIn = m := by
    change q.offsetIn + (List.replicate n 0).length = m
    rw [List.length_replicate]
    omega
  have hfull : qbufSpare (appended q (List.replicate n 0)) = 0 := by
    rw [hv.spare_eq, hoff, appended_size]
    omega
  have hdouble : sizeShl1 (qbufSize (appended q (List.replicate n 0))) = 2 * m := by
    rw [qbufSize, appended_size, hsize, sizeShl1_of_lt (by omega), Nat.mul_comm]
  obtain ⟨hv', -⟩ := qbufRealloc_some hv (fun _ => 0) (show _ ≤ 2 * m by omega) (by omega)
  refine ⟨(qbufRealloc (appended q (List.replicate n 0)) (2 * m) (some fun _ => 0)).2, ?_,
    hv', h.out, ?_, rfl⟩
  · rw [recvDrain, World.deref_eq_ok.mpr hz, ok_bind, hq, orFail_some, ok_bind]
    change (recvConsume _ len 0 >>= _) = _
    rw [recvConsume_nothing, ok_bind, if_pos hfull, hdouble]
    rfl
  · rw [hv'.spare_eq]
    change 2 * m - (appended q (List.replicate n 0)).offsetIn = m
    omega

namespace World.Drinks

/-- What a gulp finds. -/
theorem receiving {n m : ℕ} (h : w.Drinks q) (hq : q.Unconsumed n m) {R W : Finset ℤ}
    (hR : (3 : ℤ) ∈ R) {left : ℤ} :
    (Sys.mk (.poll (some 0) R W left) w).receiving (.visit (gulp n)) = some (q, (gulp n).recv) := by
  obtain ⟨z, live, fd, type, entry, readCb, -, room⟩ := h.sock
  refine Sys.receiving_eq_some.mpr ⟨0, R, W, left, none, z, rfl, rfl, live, ?_, room, ?_⟩
  · refine ZSocket.receives_iff.mpr ⟨?_, fd ▸ hR, entry, by rw [type]; decide, by rw [readCb]; rfl⟩
    rw [fd]
    decide
  · rw [hq.spare]
    exact (List.length_replicate ..).le

/-- The loop is entered. -/
theorem loop (h : w.Drinks q) : ∃ w', zio.step ⟨.idle, w⟩ (.loop 1000 (.ready {3} ∅)) =
    .ok ⟨.poll (some 0) {3} ∅ 1, w'⟩ ∧ w'.Drinks q := by
  obtain ⟨socks, watched, top, sock⟩ := h
  let nfds := if w.nfdsRead > w.nfdsWrite then w.nfdsRead else w.nfdsWrite
  have hnfds : 3 < nfds := by
    dsimp only [nfds]
    split <;> omega
  -- the kernel reports the one descriptor that is asked about
  have hready : ({3} : Finset ℤ) ⊆ w.fdsRead.filter (· < nfds) ∧
      (∅ : Finset ℤ) ⊆ w.fdsWrite.filter (· < nfds) ∧
      0 < ({3} : Finset ℤ).card + (∅ : Finset ℤ).card :=
    ⟨Finset.singleton_subset_iff.mpr (Finset.mem_filter.mpr ⟨watched, hnfds⟩),
      Finset.empty_subset _, by decide⟩
  have hselect : pollSelect 1000 (.ready {3} ∅) { w with inLooping := true } = .ok _ :=
    if_pos hready
  refine ⟨World.log { w with inLooping := true } (.select nfds 1 0), ?_, socks, watched, top, sock⟩
  change (pollSelect 1000 (.ready {3} ∅) { w with inLooping := true } >>= _) = _
  rw [hselect, ok_bind]
  change Except.ok (Sys.mk (.poll w.socks.head? {3} ∅ 1) _) = _
  rw [socks]
  rfl

/-- The traversal of `zsocket_do_close` is entered. -/
theorem startClose_eq (h : w.Drinks q) : startClose w = .ok ⟨.close (some 0) none, w⟩ := by
  obtain ⟨socks, -, -, z, live, -, -, -, -, node, -⟩ := h
  have hfirst : w.listFirst = some 0 := by rw [World.listFirst, socks]; rfl
  have hnext : w.listNext 0 = .ok none := by
    rw [World.listNext, World.deref_eq_ok.mpr live, ok_bind, node, socks]
    rfl
  rw [startClose, hfirst]
  change (w.listNext 0 >>= _) = _
  rw [hnext]
  rfl

/-- It leaves the socket alone. -/
theorem closeVisit (h : w.Drinks q) : zio.step ⟨.close (some 0) none, w⟩ (.closeVisit ⟨0, []⟩) =
    .ok ⟨.close none (some 0), w⟩ := by
  obtain ⟨socks, -, -, z, live, -, type, entry, -⟩ := h
  have hstale : z.stale 0 = false := by rw [ZSocket.stale, type]; rfl
  have hvisit : doCloseVisit 0 ⟨0, []⟩ w = .ok w := by
    rw [doCloseVisit, World.deref_eq_ok.mpr live, ok_bind, hstale]
    change (w.deref 0 >>= _) = _
    rw [World.deref_eq_ok.mpr live, ok_bind, entry.eof]
    rfl
  change (doCloseVisit 0 ⟨0, []⟩ w >>= _) = _
  rw [hvisit, ok_bind]
  change Except.ok (Sys.mk (.close none w.socks.head?) w) = _
  rw [socks]
  rfl

/-- The bytes are received, and the buffer is doubled. -/
theorem visit {n m : ℕ} (h : w.Drinks q) (hq : q.Unconsumed n m) (hn : n < 2 ^ 31)
    (hm : m < 2 ^ 62) :
    ∃ w' q',
      zio.step ⟨.poll (some 0) {3} ∅ 1, w⟩ (.visit (gulp n)) = .ok ⟨.close (some 0) none, w'⟩ ∧
      w'.Drinks q' ∧ q'.Unconsumed m (2 * m) := by
  obtain ⟨socks, watched, top, z, live, fd, type, entry, readCb, node, room⟩ := h
  have hfit : (gulp n).recv.bytes.length ≤ qbufSpare q := by
    rw [hq.spare]
    exact (List.length_replicate ..).le
  have hstore := recvStore_eq hq.valid hfit (show _ < _ from (List.length_replicate ..).trans_lt hn)
  have hv := hq.valid.append hfit
  have hrecv := @zsocketHandleRecv_eq w 0 z (gulp n).recv _ _ _ _ _ live entry
    (by rw [type]; decide) readCb room hstore (recvOffer_valid hv)
  -- the `recv` does not fail, so that the flags stay
  have hstate (q₁ : QBuf) : (z.filled (gulp n).recv q₁).state = z.state := by
    have hnrecv : (gulp n).recv.nrecv = n := by
      rw [RecvIo.nrecv]
      change intOfSize (List.replicate n 0).length = n
      rw [List.length_replicate, intOfSize_of_lt hn]
    exact if_neg (by rw [hnrecv]; omega)
  -- the world in which `read_cb` is called
  obtain ⟨v, hoffered⟩ : ∃ v, v = w.offered 0 z (gulp n).recv (qbufSpare q)
      (appended q (gulp n).recv.bytes) 5 (stored (appended q (gulp n).recv.bytes))
      (intOfSize (qbufUsed (appended q (gulp n).recv.bytes))) := ⟨_, rfl⟩
  have hlive : v.mem 0 = .live (z.filled (gulp n).recv (appended q (gulp n).recv.bytes)) := by
    rw [hoffered]
    exact World.put_mem_self (w.log (.recv 0 (qbufSpare q) (gulp n).recv.nrecv)) 0 _
  obtain ⟨q', hdrain, hq'⟩ := recvDrain_gulp (n := n) hq hm hlive rfl
    (qbufUsed (appended q (gulp n).recv.bytes))
  rw [← hoffered] at hrecv
  obtain ⟨u, hu⟩ : ∃ u, u = v.put 0 { z.filled (gulp n).recv
      (appended q (gulp n).recv.bytes) with rbuf := some q' } := ⟨_, rfl⟩
  have hdrinks : u.Drinks q' := by
    subst hu hoffered
    refine ⟨socks, watched, top, _, World.put_mem_self _ _ _, fd, type, ⟨entry.type, ?_, ?_⟩,
      readCb, node, rfl⟩
    · exact (congrArg (hasFlag · ZS_S_EOF) (hstate _)).trans entry.eof
    · exact (congrArg (hasFlag · ZS_S_READ_ENABLE) (hstate _)).trans entry.enable
  refine ⟨u, q', ?_, hdrinks, hq'⟩
  rw [← hu] at hdrain
  have hrun : zsocketHandleRecv 0 (gulp n).recv w = .ok u := hrecv.trans hdrain
  obtain ⟨y, hy, hyfd⟩ : ∃ y, u.mem 0 = .live y ∧ y.fd = 3 := by
    obtain ⟨-, -, -, y, hy, hyfd, -⟩ := hdrinks
    exact ⟨y, hy, hyfd⟩
  have hvisit : pollVisit {3} ∅ 0 (gulp n) w = .ok (true, u) := by
    rw [pollVisit, World.deref_eq_ok.mpr live, ok_bind, fd]
    change (zsocketHandleRecv 0 (gulp n).recv w >>= _) = _
    rw [hrun, ok_bind, World.deref_eq_ok.mpr hy, ok_bind, hyfd]
    rfl
  change (pollVisit {3} ∅ 0 (gulp n) w >>= _) = _
  rw [hvisit, ok_bind]
  exact hdrinks.startClose_eq

/-- A call of `zsocket_loop` that fills the buffer. -/
theorem round {n m : ℕ} (h : w.Drinks q) (hq : q.Unconsumed n m) (hn : n < 2 ^ 31)
    (hm : m < 2 ^ 62) :
    ∃ w' q', zio.run (gulpRound n) ⟨.idle, w⟩ = .ok ⟨.idle, w'⟩ ∧
      w'.Drinks q' ∧ q'.Unconsumed m (2 * m) := by
  obtain ⟨w₁, hloop, h₁⟩ := h.loop
  obtain ⟨w₂, q', hvisit, h₂, hq'⟩ := h₁.visit hq hn hm
  refine ⟨World.log { w₂ with inLooping := false } (.loopReturn 0), q', ?_,
    ⟨h₂.socks, h₂.watched, h₂.top, h₂.sock⟩, hq'⟩
  rw [gulpRound, Machine.run, hloop, ok_bind, Machine.run, hvisit, ok_bind, Machine.run,
    h₂.closeVisit, ok_bind]
  rfl

end World.Drinks

/-- The flood doubles the buffer with every call of `zsocket_loop`. -/
theorem flood_run {n : ℕ} (hn : n ≤ 17) : ∃ w q, zio.run (flood n) zio.init = .ok ⟨.idle, w⟩ ∧
    w.Drinks q ∧ q.Unconsumed (8192 * 2 ^ n) (2 * (8192 * 2 ^ n)) := by
  induction n with
  | zero =>
      let q : QBuf := { rawbuf := zeroed 8192, size := 8192, offsetIn := 0, offsetOut := 0 }
      have hq : q.Unconsumed 8192 8192 :=
        ⟨⟨Nat.le_refl _, by decide, List.length_replicate.symm, by decide⟩, rfl, by decide, rfl⟩
      have hopen : ∃ w, zio.run [.call (.init 0),
            .call (.connect 0 ⟨0, 8000⟩ none ⟨some 3, true, ⟨0, 4000⟩, 0⟩),
            .call (.readStart 0 (some 5))] zio.init = .ok ⟨.idle, w⟩ ∧ w.Drinks q :=
        ⟨_, rfl, rfl, by decide, by decide, _, rfl, rfl, rfl, ⟨by decide, by decide, by decide⟩,
          rfl, rfl, rfl⟩
      obtain ⟨w, hrun, h⟩ := hopen
      obtain ⟨w', q', hround, h', hq'⟩ := h.round hq (by decide) (by decide)
      exact ⟨w', q', Machine.run_append hrun hround, h', hq'⟩
  | succ n ih =>
      obtain ⟨w, q, hrun, h, hq⟩ := ih (by omega)
      have hpow : 2 ^ n ≤ 2 ^ 16 := Nat.pow_le_pow_right (by decide) (by omega)
      obtain ⟨w', q', hround, h', hq'⟩ := h.round hq (by omega) (by omega)
      refine ⟨w', q', Machine.run_append hrun hround, h', ?_⟩
      rwa [show 8192 * 2 ^ (n + 1) = 2 * (8192 * 2 ^ n) by omega]

/-- A `recv` of the flood returns an `int`. -/
theorem flood_recvInt {n : ℕ} (hn : n ≤ 17) : ∀ i ∈ flood n, i.recvInt := by
  have round {k : ℕ} (hk : k < 2 ^ 31) : ∀ i ∈ gulpRound k, i.recvInt := by
    refine List.forall_mem_cons.mpr ⟨trivial, List.forall_mem_cons.mpr ⟨?_, by decide⟩⟩
    exact (List.length_replicate ..).trans_lt hk
  induction n with
  | zero => exact List.forall_mem_append.mpr ⟨by decide, round (by decide)⟩
  | succ n ih =>
      have hpow : 2 ^ n ≤ 2 ^ 16 := Nat.pow_le_pow_right (by decide) (by omega)
      exact List.forall_mem_append.mpr ⟨ih (by omega), round (by omega)⟩

/-- The peer fills the buffer eighteen times, and sends `2 ^ 30` bytes more. The backlog is `2 ^ 31`
then, and `read_cb` is offered a negative number of bytes. -/
theorem read_cb_length_negative :
    (∀ i ∈ flood 17 ++ [.loop 1000 (.ready {3} ∅), .visit (gulp (2 ^ 30))], i.recvInt) ∧
    ¬ zio.Meets OffersLength (flood 17 ++ [.loop 1000 (.ready {3} ∅), .visit (gulp (2 ^ 30))])
      zio.init := by
  have hgulp : (gulp (2 ^ 30)).recv.bytes.length = 2 ^ 30 := List.length_replicate
  refine ⟨List.forall_mem_append.mpr ⟨flood_recvInt (Nat.le_refl 17), ?_⟩, fun meets => ?_⟩
  · refine List.forall_mem_cons.mpr ⟨trivial, List.forall_mem_cons.mpr ⟨?_, by decide⟩⟩
    exact hgulp.trans_lt (by decide)
  obtain ⟨w, q, hrun, h, hq⟩ := flood_run (Nat.le_refl 17)
  have hq : q.Unconsumed (2 ^ 30) (2 ^ 31) := hq
  obtain ⟨w', hloop, h'⟩ := h.loop
  have hlast : zio.run (flood 17 ++ [.loop 1000 (.ready {3} ∅)]) zio.init = .ok _ :=
    Machine.run_append hrun (bind_eq_ok.mpr ⟨_, hloop, rfl⟩)
  rw [show ∀ a b : Input, flood 17 ++ [a, b] = (flood 17 ++ [a]) ++ [b] by simp] at meets
  have hoffers := meets.last hlast _ (h'.receiving hq (Finset.mem_singleton_self 3))
  have hfits := (hgulp.trans hq.spare.symm).le
  have hlt := (recvOffer_length_iff hq.valid hfits (hgulp.trans_lt (by decide))).mp hoffers
  have hused := hq.valid.used_eq
  have hspare := hq.valid.spare_eq
  have hout := hq.out
  have hs := hq.spare
  have hsize := hq.size
  rw [hgulp] at hlt
  omega

end LibZio
