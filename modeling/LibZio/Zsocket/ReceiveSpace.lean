import LibZio.Zsocket.ReceiveStream

/-! # The space of the receive buffer

Two things about `rbuf` over whole runs. Between two calls of `zsocket_handle_recv` the buffer of an
open socket has spare space, so that `recv` is never asked for zero bytes; and its size stays
proportional to the largest backlog it has held. Both come from one invariant of the block: less
than three quarters of it lie in front of the contents, hence a block that is full, and is about to
be doubled, is more than a quarter backlog. Nothing but `zsocket_handle_recv` changes a read buffer
(`World.Unread`). -/

namespace LibZio

variable {w w' : World} {s t pos : Sid} {z : ZSocket} {q q' : QBuf} {io : RecvIo} {peak : ℕ}

/-! ## The buffer through one call -/

/-- A read buffer that has held at most `peak` unconsumed bytes. -/
structure RecvSpace (q : QBuf) (peak : ℕ) : Prop where
  valid : q.Valid
  head : 4 * q.offsetOut < 3 * q.size
  used_le : qbufUsed q ≤ peak
  size : q.size = READ_BUF_SIZE ∨ q.size < 8 * peak

namespace RecvSpace

/-- A new buffer. -/
theorem new {a b : Bool} (h : qbufNew READ_BUF_SIZE a b = some q) (peak : ℕ) :
    RecvSpace q peak ∧ qbufSpare q ≠ 0 := by
  obtain ⟨hv, -, hsz, hin, hout⟩ := qbufNew_spec (by decide) h
  have hsize : q.size = 8192 := hsz
  refine ⟨⟨hv, by omega, ?_, .inl hsize⟩, ?_⟩
  · rw [hv.used_eq]; omega
  · rw [hv.spare_eq]; omega

/-- The `recv` raises the peak to the backlog it leaves. -/
theorem receive (h : RecvSpace q peak) (hfit : io.bytes.length ≤ qbufSpare q) :
    RecvSpace (appended q io.bytes) (max (qbufUsed (appended q io.bytes)) peak) :=
  ⟨h.valid.append hfit, h.head, le_max_left _ _, h.size.imp_right fun hlt => by
    rw [appended_size]; omega⟩

/-- The consumption leaves less. -/
theorem consume {nr : BitVec 32} (h : RecvSpace q peak) (hnr : 0 ≤ nr.toInt)
    (hok : recvConsume q (qbufUsed q) nr = .ok q') : RecvSpace q' peak ∧ q'.size = q.size := by
  obtain ⟨q₁, hq₁, hv, hst, hsz, hcases⟩ := recvConsume_cases h.valid hnr
  obtain rfl : q₁ = q' := Except.ok.inj (hq₁.symm.trans hok)
  have hused : qbufUsed q₁ ≤ qbufUsed q := by
    rw [← hv.length_stored, ← h.valid.length_stored, hst, List.length_drop]
    omega
  refine ⟨⟨hv, ?_, hused.trans h.used_le, by rw [hsz]; exact h.size⟩, hsz⟩
  obtain rfl | ⟨hhead, -⟩ := hcases
  · exact h.head
  · exact hhead

/-- **The growth of a full buffer.** More than a quarter of the block is backlog, so that twice the
block is less than eight times the backlog. -/
theorem grow (h : RecvSpace q peak) (hsize : q.size < 2 ^ 62) (hfull : qbufSpare q = 0)
    (re : Realloc) : RecvSpace (qbufRealloc q (sizeShl1 (qbufSize q)) re).2 peak ∧
      ((qbufRealloc q (sizeShl1 (qbufSize q)) re).1 = 0 →
        qbufSpare (qbufRealloc q (sizeShl1 (qbufSize q)) re).2 ≠ 0) := by
  have := h.valid.out_le; have := h.valid.in_le; have := h.used_le; have := h.head
  have hused := h.valid.used_eq
  have hspare := h.valid.spare_eq
  cases re with
  | none => exact ⟨h, fun hc => absurd hc (by simp [qbufRealloc])⟩
  | some fill =>
      have hdouble : sizeShl1 (qbufSize q) = q.size * 2 := sizeShl1_of_lt (by rw [qbufSize]; omega)
      rw [hdouble]
      obtain ⟨hv, -⟩ :=
        qbufRealloc_some h.valid fill (show q.offsetIn ≤ q.size * 2 by omega) (by omega)
      have hin : (qbufRealloc q (q.size * 2) (some fill)).2.offsetIn = q.offsetIn := rfl
      have hout : (qbufRealloc q (q.size * 2) (some fill)).2.offsetOut = q.offsetOut := rfl
      have hsz : (qbufRealloc q (q.size * 2) (some fill)).2.size = q.size * 2 := rfl
      refine ⟨⟨hv, by omega, ?_, .inr (by omega)⟩, fun _ => ?_⟩
      · rw [hv.used_eq]; omega
      · rw [hv.spare_eq]; omega

end RecvSpace

/-! ## What is on record -/

/-- An event of `zsocket_handle_recv` on a client or connection. -/
def Event.receives : Event → Bool
  | .recv _ _ _ => true
  | .readCb _ _ _ _ => true
  | _ => false

/-- The largest number of unconsumed bytes that the read buffer of `s` has held, by the events of a
trace. Bytes are added by `recv` alone, and `read_cb` is offered all of them before any is
consumed. -/
def peakBacklog (s : Sid) : List Event → ℕ
  | [] => 0
  | .readCb t _ buf _ :: trace =>
    if t = s then max buf.length (peakBacklog s trace) else peakBacklog s trace
  | _ :: trace => peakBacklog s trace

/-- Other events do not count. -/
theorem peakBacklog_cons {e : Event} (h : e.receives = false) (trace : List Event) :
    peakBacklog s (e :: trace) = peakBacklog s trace := by
  cases e <;> first | rfl | cases h

/-- The peak is decided by the events of the receive handler. -/
theorem peakBacklog_filter (s : Sid) (trace : List Event) :
    peakBacklog s (trace.filter Event.receives) = peakBacklog s trace := by
  induction trace with
  | nil => rfl
  | cons e trace ih =>
      cases h : e.receives with
      | false => rw [List.filter_cons_of_neg (by rw [h]; decide), ih, peakBacklog_cons h]
      | true =>
          rw [List.filter_cons_of_pos h]
          cases e with
          | recv => exact ih
          | readCb => simp only [peakBacklog, ih]
          | _ => cases h

/-! ## Where nothing is received -/

/-- No receive handler runs between `w` and `w'`: a read buffer is as it was, or gone. -/
structure World.Unread (w w' : World) : Prop where
  rbuf : ∀ s z', w'.mem s = .live z' → z'.rbuf = none ∨ ∃ z, w.mem s = .live z ∧ z'.rbuf = z.rbuf
  trace : w'.trace.filter Event.receives = w.trace.filter Event.receives

namespace World.Unread

theorem refl (w : World) : w.Unread w := ⟨fun _ z' h => .inr ⟨z', h, rfl⟩, rfl⟩

theorem trans {w'' : World} (h : w.Unread w') (h' : w'.Unread w'') : w.Unread w'' := by
  refine ⟨fun s z'' hz'' => ?_, h'.trace.trans h.trace⟩
  obtain hnone | ⟨z', hz', heq'⟩ := h'.rbuf s z'' hz''
  · exact .inl hnone
  · obtain hnone | ⟨z, hz, heq⟩ := h.rbuf s z' hz'
    · exact .inl (heq'.trans hnone)
    · exact .inr ⟨z, hz, heq'.trans heq⟩

/-- The memory is as it was. -/
theorem of_mem (hmem : w'.mem = w.mem)
    (htrace : w'.trace.filter Event.receives = w.trace.filter Event.receives) : w.Unread w' :=
  ⟨fun _ z' hz' => .inr ⟨z', hmem ▸ hz', rfl⟩, htrace⟩

/-- Observing something else. -/
theorem log {e : Event} (h : e.receives = false) : w.Unread (w.log e) :=
  of_mem rfl (List.filter_cons_of_neg (by rw [h]; decide))

/-- One socket is rewritten, and keeps its read buffer or loses it. -/
theorem rewritten {x : Slot} (hmem : ∀ t, w'.mem t = if t = s then x else w.mem t)
    (hx : ∀ z', x = .live z' → z'.rbuf = none ∨ ∃ z, w.mem s = .live z ∧ z'.rbuf = z.rbuf)
    (htrace : w'.trace.filter Event.receives = w.trace.filter Event.receives) : w.Unread w' := by
  refine ⟨fun t z' hz' => ?_, htrace⟩
  rw [hmem t] at hz'
  by_cases hts : t = s
  · subst hts
    rw [if_pos rfl] at hz'
    exact hx z' hz'
  · rw [if_neg hts] at hz'
    exact .inr ⟨z', hz', rfl⟩

/-- Writing a socket whose read buffer stays. -/
theorem put {z' : ZSocket} (hz : w.mem s = .live z) (h : z'.rbuf = z.rbuf) :
    w.Unread (w.put s z') := by
  refine rewritten (x := .live z') (fun t => World.put_mem w s t z') ?_ rfl
  rintro _ ⟨⟩
  exact .inr ⟨z, hz, h⟩

/-- Closing a socket in the loop. -/
theorem closedWorld {cb : Option Cb} (hz : w.mem s = .live z) :
    w.Unread (w.closedWorld s z cb) := by
  refine rewritten (x := .live (z.closed cb)) (fun t => World.put_mem _ s t _) ?_
    (List.filter_cons_of_neg Bool.false_ne_true)
  rintro _ ⟨⟩
  exact .inr ⟨z, hz, rfl⟩

/-- Opening a socket. -/
theorem openedWorld {z' : ZSocket} {fd : ℕ} {source : Option Sid} (hz : w.mem s = .live z)
    (h : z'.rbuf = z.rbuf) : w.Unread (w.openedWorld s z' fd source) := by
  refine rewritten (x := .live z') (fun t => World.put_mem _ s t _) ?_ ?_
  · rintro _ ⟨⟩
    exact .inr ⟨z, hz, h⟩
  · cases source <;> rfl

end World.Unread

/-- A move that leaves every read buffer, or drops it. -/
def Act.keepsRbuf : Act → Bool
  | .log | .open _ | .receive _ | .recvFail _ | .abandon _ | .recount _ => false
  | _ => true

/-- **Such a move receives nothing.** -/
theorem Move.unread {a : Act} (m : Move a w w') (h : a.keepsRbuf = true) : w.Unread w' := by
  cases m with
  | log | «open» | receive | recvFail | abandon | recount => cases h
  | mode b => exact .of_mem rfl rfl
  | @init _ s hu =>
      refine .rewritten (s := s) (x := .live .initial) (fun t => ?_) ?_ ?_
      · rw [World.put_mem]; cases w.libInit <;> rfl
      · rintro _ ⟨⟩
        exact .inl rfl
      · cases hi : w.libInit <;> rfl
  | @watch _ s z cb live | @unwatch _ s z live | @watchWrite _ s z q live =>
      refine .rewritten (s := s) (x := .live _) (fun t => World.put_mem _ s t _) ?_ rfl
      rintro _ ⟨⟩
      exact .inr ⟨z, live, rfl⟩
  | touch live same rbuf => exact .put live rbuf
  | close live => exact .closedWorld live
  | @unlink _ s z live =>
      refine .rewritten (s := s) (x := .live z.unlinked) (fun t => World.put_mem _ s t _) ?_ rfl
      rintro _ ⟨⟩
      exact .inr ⟨z, live, rfl⟩
  | @release _ s z live =>
      refine .rewritten (s := s) (x := .live z.torn) (fun t => World.put_mem _ s t _) ?_ rfl
      rintro _ ⟨⟩
      exact .inl rfl
  | @«free» _ s =>
      refine .rewritten (s := s) (x := .freed) (fun t => Function.update_apply ..)
        (fun _ h => nomatch h) ?_
      exact List.filter_cons_of_neg Bool.false_ne_true

/-- A sequence of such moves receives nothing. -/
theorem Moves.unread {P : Act → Prop} (m : Moves P w w') (h : ∀ a, P a → a.keepsRbuf = true) :
    w.Unread w' := by
  induction m with
  | refl => exact .refl w
  | tail _ hm ih =>
      obtain ⟨a, ha, hm⟩ := hm
      exact ih.trans (hm.unread (h a ha))

/-- **No API call receives anything.** -/
theorem Api.run_unread (c : Api) (hw : w.WF) (h : c.run w = .ok w') : w.Unread w' := by
  cases c with
  | connect s addr cb io =>
      obtain ⟨⟨r, v⟩, hc, rfl⟩ := map_eq_ok.mp h
      obtain ⟨z, hz, -, ⟨-, -, rfl⟩ | ⟨fd, -, -, ⟨-, -, rfl⟩ | ⟨-, -, -, rfl⟩⟩⟩ :=
        zsocketConnect_eq_ok.mp hc
      · exact .refl _
      · exact .log rfl
      · have hopen : w.Unread (w.openedWorld s (z.asClient addr cb io fd) fd none) :=
          .openedWorld hz rfl
        cases cb with
        | none => exact hopen
        | some cb => exact hopen.trans (.log rfl)
  | listen s addr cb io =>
      obtain ⟨⟨r, v⟩, hc, rfl⟩ := map_eq_ok.mp h
      obtain ⟨z, hz, -, -, ⟨-, -, rfl⟩ | ⟨fd, -, -, ⟨-, -, rfl⟩ | ⟨-, -, -, -, rfl⟩⟩⟩ :=
        zsocketListen_eq_ok.mp hc
      · exact .refl _
      · exact .log rfl
      · have hopen : w.Unread (w.openedWorld s (z.asServer addr cb fd) fd none) :=
          .openedWorld hz rfl
        have hwatch : (w.openedWorld s (z.asServer addr cb fd) fd none).Unread
            ((w.openedWorld s (z.asServer addr cb fd) fd none).watchedRead fd) := .of_mem rfl rfl
        exact hopen.trans (hwatch.trans (.put (World.put_mem_self _ _ _) rfl))
  | accept s io =>
      obtain ⟨⟨r, v⟩, hc, rfl⟩ := map_eq_ok.mp h
      obtain ⟨z, hz, -, ⟨-, -, rfl⟩ | ⟨conn, fd, raddr, -, hu, -, -, -, -, rfl⟩⟩ :=
        zsocketAccept_eq_ok.mp hc
      · exact .refl _
      · exact ((Move.init hu).unread rfl).trans (.openedWorld (World.put_mem_self _ _ _) rfl)
  | init | close | readStart | readStop | write | sdataAlloc | sdataFree | setTimeout =>
      refine (Api.run_moves _ hw h).unread fun a ha => ?_
      simp only [Api.may] at ha
      obtain rfl | ⟨-, rfl | rfl⟩ := ha <;> rfl

/-- **No callback receives anything.** -/
theorem runScript_unread {script : List Api} (hw : w.WF) (h : runScript script w = .ok w') :
    w.Unread w' := by
  induction script generalizing w with
  | nil => cases h; exact .refl _
  | cons c cs ih =>
      obtain ⟨v, hc, h⟩ := bind_eq_ok.mp h
      exact (c.run_unread hw hc).trans (ih ((c.run_moves hw hc).wf hw) h)

/-- No deferred close receives anything. -/
theorem doCloseVisit_unread {io : CloseIo} (hw : w.WF) (hl : w.inLooping = true)
    (hz : w.mem pos = .live z) (hn : z.node = .linked) (h : doCloseVisit pos io w = .ok w') :
    w.Unread w' := by
  have reaps : ∀ {v : World} {y : ZSocket}, v.WF → v.inLooping = true → v.mem pos = .live y →
      y.node = .linked → y.eof = true → reap pos y v = .ok w' → v.Unread w' := by
    intro v y hv hvl hy hyn he hreap
    refine (reap_moves hv hvl hy hyn he hreap).unread fun a ha => ?_
    obtain rfl | rfl | rfl | ⟨t, -, -, rfl, -⟩ := ha <;> rfl
  obtain ⟨-, -, rfl⟩ | ⟨-, he, h⟩ | ⟨-, -, h⟩ := (doCloseVisit_eq_ok hw hl hz hn).mp h
  · exact .refl _
  · exact reaps hw hl hz hn he h
  · have hmark : w.Unread (w.put pos { z with state := z.state &&& ZS_S_TIMEOUT }) := .put hz rfl
    have hclose : w.Unread (w.timedOutWorld pos z) :=
      hmark.trans (.closedWorld (World.put_mem_self _ _ _))
    exact hclose.trans (reaps (hw.timedOutWorld hz hn) hl (World.put_mem_self _ _ _) hn
      (ZSocket.closed_eof _ _) h)

/-! ## The invariant -/

/-- Every read buffer is within its peak, and `recv` was asked for at least one byte each time. -/
structure World.RecvSound (w : World) : Prop where
  space : ∀ s z q, w.mem s = .live z → z.rbuf = some q → RecvSpace q (peakBacklog s w.trace)
  asked : ∀ s asked nrecv, Event.recv s asked nrecv ∈ w.trace → 0 < asked

/-- The read buffer of `s` has room, unless `s` is EOF. -/
def World.RoomAt (w : World) (s : Sid) : Prop :=
  ∀ z q, w.mem s = .live z → z.rbuf = some q → z.eof = false → qbufSpare q ≠ 0

/-- What receives nothing keeps the buffers within their peaks. -/
theorem World.RecvSound.unread (h : w.RecvSound) (hu : w.Unread w') : w'.RecvSound := by
  refine ⟨fun s z' q hz' hq => ?_, fun s asked nrecv hmem => ?_⟩
  · obtain hnone | ⟨z, hz, heq⟩ := hu.rbuf s z' hz'
    · rw [hnone] at hq; cases hq
    · rw [← peakBacklog_filter, hu.trace, peakBacklog_filter]
      exact h.space s z q hz (heq ▸ hq)
  · refine h.asked s asked nrecv ?_
    have hfilter :=
      List.mem_filter.mpr ⟨hmem, show Event.receives (.recv s asked nrecv) = true from rfl⟩
    rw [hu.trace] at hfilter
    exact (List.mem_filter.mp hfilter).1

/-- What receives nothing leaves the room, since a closed socket stays closed. -/
theorem World.RoomAt.unread (h : w.RoomAt s) (hu : w.Unread w') (hover : w.Over s → w'.Over s) :
    w'.RoomAt s := by
  intro z' q hz' hq he
  obtain hnone | ⟨z, hz, heq⟩ := hu.rbuf s z' hz'
  · rw [hnone] at hq; cases hq
  · refine h z q hz (heq ▸ hq) ?_
    by_contra hze
    obtain hfreed | ⟨y, hy, hye⟩ := hover (.inr ⟨z, hz, by simpa using hze⟩)
    · rw [hz'] at hfreed; cases hfreed
    · obtain rfl : z' = y := Slot.live.inj (hz'.symm.trans hy)
      rw [he] at hye
      cases hye

/-- Another read buffer for one socket. -/
theorem World.RecvSound.put {z' : ZSocket} (h : w.RecvSound)
    (hq : ∀ q, z'.rbuf = some q → RecvSpace q (peakBacklog s w.trace)) :
    (w.put s z').RecvSound := by
  refine ⟨fun t y q hy hyq => ?_, h.asked⟩
  by_cases hts : t = s
  · subst hts
    obtain rfl := Slot.live.inj ((World.put_mem_self _ _ _).symm.trans hy)
    exact hq q hyq
  · exact h.space t y q ((World.put_mem_of_ne _ hts _).symm.trans hy) hyq

/-- The buffer that is received into has room. -/
theorem World.RecvSound.buffer (h : w.RecvSound) (hroom : w.RoomAt s) (hz : w.mem s = .live z)
    (he : z.eof = false) (hb : io.buffer z.rbuf = some q) :
    RecvSpace q (peakBacklog s w.trace) ∧ qbufSpare q ≠ 0 := by
  cases hq : z.rbuf with
  | some q₀ =>
      rw [hq] at hb
      obtain rfl : q₀ = q := Option.some.inj hb
      exact ⟨h.space s z q₀ hz hq, hroom z q₀ hz hq he⟩
  | none =>
      rw [hq] at hb
      exact RecvSpace.new hb _

/-- Whether the model's bounds hold for a call of `zsocket_handle_recv`: fewer than `2 ^ 31` bytes
are received, and the buffer is smaller than `2 ^ 62`. -/
def World.recvFits (w : World) (s : Sid) (io : RecvIo) : Bool :=
  decide (io.bytes.length < 2 ^ 31) &&
    w.check s fun z => match z.rbuf with
      | some q => decide (q.size < 2 ^ 62)
      | none => true

/-- What is stored in such a call. -/
theorem World.RecvSound.stores (h : w.RecvSound) (hroom : w.RoomAt s) (hz : w.mem s = .live z)
    (he : z.eof = false) (hfit : w.recvFits s io = true) (hb : io.buffer z.rbuf = some q)
    (hstore : recvStore q io = .ok q') :
    RecvSpace q' (max (qbufUsed q') (peakBacklog s w.trace)) ∧ q'.size < 2 ^ 62 := by
  obtain ⟨hlt, hsize⟩ := (Bool.and_eq_true _ _).mp hfit
  have hsize := World.of_check hsize hz
  obtain ⟨hspace, -⟩ := h.buffer hroom hz he hb
  have hchunk := fits_of_recvStore hstore
  obtain rfl : appended q io.bytes = q' :=
    Except.ok.inj ((recvStore_eq hspace.valid hchunk (of_decide_eq_true hlt)).symm.trans hstore)
  refine ⟨hspace.receive hchunk, ?_⟩
  rw [appended_size]
  cases hq : z.rbuf with
  | some q₀ =>
      rw [hq] at hb hsize
      obtain rfl : q₀ = q := Option.some.inj hb
      exact of_decide_eq_true hsize
  | none =>
      rw [hq] at hb
      obtain ⟨-, -, hnew, -⟩ := qbufNew_spec (by decide) hb
      have : q.size = 8192 := hnew
      omega

/-- `read_cb` is called with the invariant in place: its offer raises the peak to what is stored. -/
theorem World.RecvSound.offered {cb : Cb} {buf : List UInt8} {len : ℤ} (h : w.RecvSound)
    (hroom : w.RoomAt s) (hz : w.mem s = .live z) (he : z.eof = false)
    (hfit : w.recvFits s io = true)
    (hb : io.buffer z.rbuf = some q) (hstore : recvStore q io = .ok q')
    (hoffer : recvOffer q' = .ok (buf, len)) :
    (w.offered s z io (qbufSpare q) q' cb buf len).RecvSound := by
  obtain ⟨-, hspare⟩ := h.buffer hroom hz he hb
  obtain ⟨hspace, -⟩ := h.stores hroom hz he hfit hb hstore
  obtain ⟨buf', hload, hbuf⟩ := bind_eq_ok.mp hoffer
  cases hbuf
  obtain rfl : stored q' = buf :=
    Option.some.inj ((hspace.valid.load_stored).symm.trans (orFail_eq_ok.mp hload))
  refine ⟨fun t y q₁ hy hq₁ => ?_, fun t asked nrecv hmem => ?_⟩
  · by_cases hts : t = s
    · subst hts
      obtain rfl := Slot.live.inj ((World.put_mem_self _ _ _).symm.trans hy)
      obtain rfl : q' = q₁ := Option.some.inj hq₁
      change RecvSpace q' (peakBacklog t (.readCb t cb (stored q') _ :: .recv t _ _ :: w.trace))
      rw [peakBacklog, if_pos rfl, hspace.valid.length_stored]
      exact hspace
    · change RecvSpace q₁ (peakBacklog t (.readCb s cb (stored q') _ :: .recv s _ _ :: w.trace))
      rw [peakBacklog, if_neg (Ne.symm hts)]
      exact h.space t y q₁ ((World.put_mem_of_ne _ hts _).symm.trans hy) hq₁
  · obtain hread | hmem := List.mem_cons.mp hmem
    · cases hread
    · obtain hrecv | hmem := List.mem_cons.mp hmem
      · cases hrecv
        exact Nat.pos_of_ne_zero hspare
      · exact h.asked t asked nrecv hmem

/-- The consumption leaves room, or closes the socket. -/
theorem World.RecvSound.drain (h : w.RecvSound) (hl : w.inLooping = true) (hz : w.mem s = .live z)
    (hq : z.rbuf = some q) (hsize : q.size < 2 ^ 62) (hnr : 0 ≤ io.nr.toInt)
    (hok : recvDrain s (qbufUsed q) io w = .ok w') :
    w'.RecvSound ∧ w'.RoomAt s ∧ ∀ t, t ≠ s → w'.mem t = w.mem t := by
  obtain ⟨q', hq', hcases⟩ := recvDrain_cases hl hz hq hok
  obtain ⟨hspace, hsz⟩ := (h.space s z q hz hq).consume hnr hq'
  have room :
      ∀ (y : ZSocket) (q₁ : QBuf), y.rbuf = some q₁ → qbufSpare q₁ ≠ 0 → (w.put s y).RoomAt s := by
    intro y q₁ hy hspare y' q₂ hy' hq₂ _
    obtain rfl := Slot.live.inj ((World.put_mem_self _ _ _).symm.trans hy')
    obtain rfl : q₁ = q₂ := Option.some.inj (hy.symm.trans hq₂)
    exact hspare
  obtain ⟨hspare, rfl⟩ | ⟨hfull, hrc, rfl⟩ | ⟨hfull, -, -, z', -, hrbuf, rfl⟩ := hcases
  · refine ⟨h.put fun q₁ hq₁ => ?_, room _ q' rfl hspare, fun t ht => World.put_mem_of_ne _ ht _⟩
    obtain rfl : q' = q₁ := Option.some.inj hq₁
    exact hspace
  · obtain ⟨hgrown, hspare⟩ := hspace.grow (by omega) hfull io.grow
    refine ⟨h.put fun q₁ hq₁ => ?_, room _ _ rfl (hspare hrc),
      fun t ht => World.put_mem_of_ne _ ht _⟩
    rw [← Option.some.inj hq₁]
    exact hgrown
  · refine ⟨?_, ?_, fun t ht => (World.put_mem_of_ne _ ht _).trans (World.put_mem_of_ne _ ht _)⟩
    · have hput : (w.put s z').RecvSound := by
        refine h.put fun q₁ hq₁ => ?_
        obtain rfl : q' = q₁ := Option.some.inj (hrbuf.symm.trans hq₁)
        exact hspace
      exact hput.unread (.closedWorld (World.put_mem_self _ _ _))
    · intro y q₁ hy _ he
      obtain rfl := Slot.live.inj ((World.put_mem_self _ _ _).symm.trans hy)
      rw [ZSocket.closed_eof] at he
      cases he

/-- **A receive handler keeps the invariant.** -/
theorem World.RecvSound.recv (h : w.RecvSound) (hroom : ∀ t, w.RoomAt t) (hw : w.WF)
    (hl : w.inLooping = true) (hfit : w.recvFits s io = true)
    (hok : zsocketHandleRecv s io w = .ok w') : w'.RecvSound ∧ ∀ t, w'.RoomAt t := by
  obtain ⟨z, hz, ht, he, -,
    ⟨-, cb, hrun⟩ | ⟨-, -, rfl⟩ | ⟨-, q, q', cb, buf, len, v, hb, hstore, -, hoffer,
    hrun, hnr, hdrain⟩⟩ := zsocketHandleRecv_cases hok
  · have hlog : Move .log w (w.log (.connectionCb s cb)) := .log _ trivial
    have hu : w.Unread w' := (World.Unread.log rfl).trans (runScript_unread (hlog.wf hw) hrun)
    have hm := runScript_moves (hlog.wf hw) hl hrun
    exact ⟨h.unread hu, fun t => (hroom t).unread hu hm.still_over⟩
  · exact ⟨h, hroom⟩
  · have hn := hw.linked_of_typed hz ht he
    have hhead : Moves (recvHeadMay s io) w (w.offered s z io (qbufSpare q) q' cb buf len) :=
      offered_moves hz hn he
    obtain ⟨hm, -, hvl, y, hy, -, hyq, -⟩ := afterScript hw hl hz hn he hrun
    have hu := runScript_unread (hhead.wf hw) hrun
    obtain ⟨-, hsize⟩ := h.stores (hroom s) hz he hfit hb hstore
    have hoffered := (h.offered (hroom s) hz he hfit hb hstore hoffer).unread hu
    obtain ⟨hsound, hself, hothers⟩ := hoffered.drain hvl hy hyq hsize hnr hdrain
    refine ⟨hsound, fun t => ?_⟩
    by_cases hts : t = s
    · rw [hts]; exact hself
    -- for another socket the offer and the consumption are nothing
    · have hbefore : (w.offered s z io (qbufSpare q) q' cb buf len).RoomAt t := fun x q₁ hx =>
        hroom t x q₁ ((World.put_mem_of_ne _ hts _).symm.trans hx)
      have hafter := hbefore.unread hu hm.still_over
      exact fun x q₁ hx => hafter x q₁ ((hothers t hts).symm.trans hx)

/-- A send handler receives nothing. -/
theorem zsocketHandleSend_unread {io : SendIo} (hl : w.inLooping = true)
    (h : zsocketHandleSend s io w = .ok w') : w.Unread w' := by
  obtain ⟨z, q, hz, -, -, -, -, ⟨-, rfl⟩ | ⟨-, -, offered, -, hcases⟩⟩ :=
    zsocketHandleSend_cases hl h
  · exact .refl _
  have hlog : w.Unread (w.log (.send s offered io.nsend)) := .log rfl
  have closes : ∀ z' : ZSocket, z'.rbuf = z.rbuf →
      w.Unread (((w.log (.send s offered io.nsend)).put s z').closedWorld s z' none) := by
    intro z' hr
    have hput :
        (w.log (.send s offered io.nsend)).Unread ((w.log (.send s offered io.nsend)).put s z') :=
      .put hz hr
    exact hlog.trans (hput.trans (.closedWorld (World.put_mem_self _ _ _)))
  obtain ⟨-, -, z', -, ⟨hr, -⟩, rfl⟩ | ⟨-, -, rfl⟩ | ⟨-, q', -,
      ⟨-, -, z', -, ⟨hr, -⟩, rfl⟩ | ⟨-, rfl⟩⟩ :=
    hcases
  · exact closes z' hr
  · exact hlog
  · exact closes z' hr
  · exact hlog.trans (.put hz rfl)

/-! ## Runs -/

/-- Whether the model's bounds hold for the `recv` of a visit. -/
def Sys.recvFits (c : Sys) (i : Input) : Bool :=
  match c.ctl, i with
  | .poll (some pos) _ _ _, .visit io => c.world.recvFits pos io.recv
  | _, _ => true

/-- A visit of the poll keeps the invariant. -/
theorem World.RecvSound.visit {R W : Finset ℤ} {io : VisitIo} {b : Bool} (h : w.RecvSound)
    (hroom : ∀ t, w.RoomAt t) (hw : w.WF) (hl : w.inLooping = true)
    (hfit : w.recvFits pos io.recv = true) (hok : pollVisit R W pos io w = .ok (b, w')) :
    w'.RecvSound ∧ ∀ t, w'.RoomAt t := by
  obtain ⟨z, v, y, hz, -, hrecv, -, -, hsend, -⟩ := pollVisit_cases hok
  obtain ⟨hv, hvl, hsound, hvroom⟩ : v.WF ∧ v.inLooping = true ∧ v.RecvSound ∧ ∀ t, v.RoomAt t := by
    obtain ⟨-, hrun⟩ | ⟨-, rfl⟩ := hrecv
    · have hm := zsocketHandleRecv_moves hw hl hz hrun
      exact ⟨hm.wf hw, (hm.inLooping_eq not_recvMay_mode).trans hl, h.recv hroom hw hl hfit hrun⟩
    · exact ⟨hw, hl, h, hroom⟩
  obtain ⟨-, hrun⟩ | ⟨-, rfl⟩ := hsend
  · have hu := zsocketHandleSend_unread hvl hrun
    have hm := zsocketHandleSend_moves hv hvl hrun
    exact ⟨hsound.unread hu, fun t => (hvroom t).unread hu hm.still_over⟩
  · exact ⟨hsound, hvroom⟩

/-- **Only a visit of the poll receives.** -/
theorem Sys.unread_or_visit {c c' : Sys} {i : Input} (hc : c.Sound) (hok : c.step i = .ok c') :
    c.world.Unread c'.world ∨ ∃ pos R W left io b, c.ctl = .poll (some pos) R W left ∧
      i = .visit io ∧
      c.world.inLooping = true ∧ pollVisit R W pos io c.world = .ok (b, c'.world) := by
  obtain ⟨hw, hp⟩ := hc
  cases Sys.step_ways hok with
  | call run => exact .inl (Api.run_unread _ hw run)
  | failed | quiet | ready | endPoll | endClose => exact .inl (.of_mem rfl rfl)
  | visit run => exact .inr ⟨_, _, _, _, _, _, rfl, rfl, hp.1, run⟩
  | lastVisit run => exact .inr ⟨_, _, _, _, _, _, rfl, rfl, hp.1, run⟩
  | @closeVisit w w' pos n next io run hnext =>
      obtain ⟨l, m, hs, -⟩ := hp.2 pos rfl
      obtain ⟨z, hz, hn⟩ := hw.live_of_mem (s := pos) (by rw [hs]; simp)
      exact .inl (doCloseVisit_unread hw hp.1 hz hn run)

/-- **A step keeps the invariant.** -/
theorem Sys.recvSound_step {c c' : Sys} {i : Input} (hc : c.Sound) (h : c.world.RecvSound)
    (hroom : ∀ t, c.world.RoomAt t) (hfit : c.recvFits i = true) (hok : c.step i = .ok c') :
    c'.world.RecvSound ∧ ∀ t, c'.world.RoomAt t := by
  obtain hu | ⟨pos, R, W, left, io, b, hctl, rfl, hl, run⟩ := Sys.unread_or_visit hc hok
  · have hm := (Sys.step_moves hc hok).1
    exact ⟨h.unread hu, fun t => (hroom t).unread hu hm.still_over⟩
  · unfold Sys.recvFits at hfit
    rw [hctl] at hfit
    exact h.visit hroom hc.wf hl hfit run

/-- **The invariant holds in every state reached.** -/
theorem Sys.recvSound {c : Sys} (r : zio.Reach (fun c i => c.recvFits i = true) c) :
    c.world.RecvSound ∧ ∀ t, c.world.RoomAt t :=
  r.invariant (I := fun c => c.world.RecvSound ∧ ∀ t, c.world.RoomAt t)
    ⟨⟨fun _ _ _ hz => (nomatch hz), fun _ _ _ h => (nomatch h)⟩, fun _ _ _ hz => (nomatch hz)⟩
    fun _ _ _ hr hI hg h => Sys.recvSound_step (Sys.sound hr) hI.1 hI.2 hg h

/-- **`recv` is never asked for zero bytes.** In every state reached each `recv` so far was asked
for at least one byte, each open socket would ask for at least one, and each call of
`zsocket_handle_recv` that returns leaves its socket without a buffer, with room in it, or EOF. -/
theorem recv_asks_for_bytes {c : Sys} (r : zio.Reach (fun c i => c.recvFits i = true) c) :
    (∀ s asked nrecv, Event.recv s asked nrecv ∈ c.world.trace → 0 < asked) ∧
      (∀ s z io q, c.world.mem s = .live z → z.eof = false → RecvIo.buffer io z.rbuf = some q →
        0 < qbufSpare q) ∧
      ∀ s io w', c.world.inLooping = true → c.world.recvFits s io = true →
        zsocketHandleRecv s io c.world = .ok w' →
          (∀ t asked nrecv, Event.recv t asked nrecv ∈ w'.trace → 0 < asked) ∧
            ∀ z' q', w'.mem s = .live z' → z'.rbuf = some q' → 0 < qbufSpare q' ∨
              z'.eof = true := by
  obtain ⟨h, hroom⟩ := Sys.recvSound r
  refine ⟨h.asked, fun s z io q hz he hb => Nat.pos_of_ne_zero (h.buffer (hroom s) hz he hb).2,
    fun s io w' hl hfit hok => ?_⟩
  obtain ⟨h', hroom'⟩ := h.recv hroom (Sys.sound r).wf hl hfit hok
  refine ⟨h'.asked, fun z' q' hz' hq' => ?_⟩
  cases he : z'.eof with
  | true => exact .inr rfl
  | false => exact .inl (Nat.pos_of_ne_zero (hroom' s z' q' hz' hq' he))

/-- The worlds the program can look at, with the offers to `read_cb` as `zsocket_handle_recv` makes
them: between two steps, and in the callbacks of a step. -/
inductive Sys.Shown (G : Sys → Input → Prop) : World → Prop
  | between {c : Sys} (r : zio.Reach G c) : Shown G c.world
  /-- In the `connection_cb` of a server. -/
  | connection {c : Sys} {pos : Sid} {R W : Finset ℤ} {left : ℤ} {io : VisitIo} {z : ZSocket}
      {cb : Cb} {calls rest : List Api} {v : World} (r : zio.Reach G c)
      (ctl : c.ctl = .poll (some pos) R W left) (guard : G c (.visit io))
      (live : c.world.mem pos = .live z) (readable : z.fd ∈ R)
      (script : io.recv.script = calls ++ rest)
      (run : runScript calls (c.world.log (.connectionCb pos cb)) = .ok v) : Shown G v
  /-- In the `read_cb` of a client or a connection. -/
  | read {c : Sys} {pos : Sid} {R W : Finset ℤ} {left : ℤ} {io : VisitIo} {z : ZSocket}
      {q q' : QBuf} {cb : Cb} {buf : List UInt8} {len : ℤ} {calls rest : List Api} {v : World}
      (r : zio.Reach G c) (ctl : c.ctl = .poll (some pos) R W left) (guard : G c (.visit io))
      (live : c.world.mem pos = .live z) (readable : z.fd ∈ R) (entry : z.RecvEntry)
      (room : io.recv.buffer z.rbuf = some q) (store : recvStore q io.recv = .ok q')
      (offer : recvOffer q' = .ok (buf, len)) (script : io.recv.script = calls ++ rest)
      (run : runScript calls (c.world.offered pos z io.recv (qbufSpare q) q' cb buf len) = .ok v) :
      Shown G v

/-- The buffers are within their peaks in every world the program can look at. -/
theorem Sys.Shown.recvSound {v : World} (h : Sys.Shown (fun c i => c.recvFits i = true) v) :
    v.RecvSound := by
  cases h with
  | between r => exact (Sys.recvSound r).1
  | @connection c pos _ _ _ _ _ cb _ _ _ r _ _ _ _ _ run =>
      have hlog : Move .log c.world (c.world.log (.connectionCb pos cb)) := .log _ trivial
      exact ((Sys.recvSound r).1.unread (.log rfl)).unread
        (runScript_unread (hlog.wf (Sys.sound r).wf) run)
  | read r ctl guard live readable entry room store offer script run =>
      obtain ⟨h, hroom⟩ := Sys.recvSound r
      have hw := (Sys.sound r).wf
      unfold Sys.recvFits at guard
      rw [ctl] at guard
      have hn := hw.linked_of_typed live entry.type entry.eof
      exact (h.offered (hroom _) live entry.eof guard room store offer).unread
        (runScript_unread ((offered_moves live hn entry.eof).wf hw) run)

/-- **The receive buffer grows with the backlog.** Wherever the program looks, a read buffer holds
no more than its peak, and has its first size or less than eight times the peak. -/
theorem recv_buffer_proportional {v : World} (h : Sys.Shown (fun c i => c.recvFits i = true) v)
    {q : QBuf} (live : v.mem s = .live z) (rbuf : z.rbuf = some q) :
    (q.size = READ_BUF_SIZE ∨ q.size < 8 * peakBacklog s v.trace) ∧
      qbufUsed q ≤ peakBacklog s v.trace :=
  have hspace := h.recvSound.space s z q live rbuf
  ⟨hspace.size, hspace.used_le⟩

/-- The connection `1` is readable, and receives `[1, 2, 3]`. -/
def receiveThree : List Input :=
  readOne 8000 ++ [.loop 1000 (.ready {4} ∅), .visit ⟨.chunk [1, 2, 3] 1, none⟩]

/-- A first `recv` is asked for bytes. -/
theorem recv_asks_for_bytes_run : ∃ (c : Sys) (asked : ℕ), Event.recv 1 asked 3 ∈ c.world.trace ∧
    0 < asked := by
  obtain ⟨c, r, h⟩ := Machine.Reach.of_leadsTo (M := zio)
    (P := fun c => c.world.trace.any fun e => decide (e = .recv 1 8192 3)) .init
    (show zio.leadsTo (fun c i => c.recvFits i = true) _ receiveThree zio.init = true
      by decide +kernel)
  obtain ⟨e, he, hrecv⟩ := List.any_eq_true.mp h
  obtain rfl := of_decide_eq_true hrecv
  exact ⟨c, _, he, (recv_asks_for_bytes r).1 1 _ _ he⟩

/-- The connection `1` receives as many bytes as its buffer has room for and takes none of them, and
the buffer is made larger. -/
def receiveAll : List Input :=
  readOne 8000 ++ [.loop 1000 (.ready {4} ∅),
    .visit ⟨{ RecvIo.chunk (List.replicate READ_BUF_SIZE 7) 0 with grow := some fun _ => 0 }, none⟩]

/-- The buffer of the connection has grown to twice its first size, which is twice the backlog. -/
theorem recv_buffer_proportional_run : ∃ (w : World) (z : ZSocket) (q : QBuf), w.mem 1 = .live z ∧
    z.rbuf = some q ∧ q.size = 16384 ∧ peakBacklog 1 w.trace = 8192 ∧
      q.size < 8 * peakBacklog 1 w.trace := by
  obtain ⟨c, r, h⟩ := Machine.Reach.of_leadsTo (M := zio)
    (P := fun c => decide (peakBacklog 1 c.world.trace = 8192) &&
      c.world.has 1 fun z => decide (z.rbuf.map QBuf.size = some 16384)) .init
    (show zio.leadsTo (fun c i => c.recvFits i = true) _ receiveAll zio.init = true
      by decide +kernel)
  obtain ⟨hpeak, h⟩ := (Bool.and_eq_true _ _).mp h
  obtain ⟨z, hz, h⟩ := World.has_eq_true.mp h
  obtain ⟨q, hq, hsize⟩ := Option.map_eq_some_iff.mp (of_decide_eq_true h)
  obtain hfirst | hgrown := (recv_buffer_proportional (.between r) hz hq).1
  · rw [hsize] at hfirst
    cases hfirst
  · exact ⟨c.world, z, q, hz, hq, hsize, of_decide_eq_true hpeak, hgrown⟩

end LibZio
