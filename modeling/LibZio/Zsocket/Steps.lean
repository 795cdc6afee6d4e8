import LibZio.Zsocket.CloseVisits
import LibZio.Zsocket.Handlers

/-! # The moves of the machine

The iterations of the two traversals and the steps of the machine, as sequences of moves, and the
invariant of the machine itself: its world is well formed, and inside a traversal the library is
looping and the cursors stand on the list (`Sys.Sound`). -/

namespace LibZio

variable {w w' : World} {s pos : Sid} {z : ZSocket}

/-! ## Handlers -/

/-- Whether the receive buffer is full after the bytes received and those consumed, and cannot be
grown. -/
def RecvIo.runsOut (io : RecvIo) (rbuf : Option QBuf) : Bool :=
  let drained : Res QBuf := do
    let q ← orFail (io.buffer rbuf) .environment
    let q ← recvStore q io
    recvConsume q (qbufUsed q) io.nr
  match drained with
  | .ok q => qbufSpare q = 0 && (qbufRealloc q (sizeShl1 (qbufSize q)) io.grow).1 ≠ 0
  | .error _ => false

/-- The buffer runs out when the drained buffer has no room and is not grown. -/
theorem RecvIo.runsOut_of {io : RecvIo} {rbuf : Option QBuf} {q q₁ q₂ : QBuf}
    (hb : io.buffer rbuf = some q) (hs : recvStore q io = .ok q₁)
    (hc : recvConsume q₁ (qbufUsed q₁) io.nr = .ok q₂) (hfull : qbufSpare q₂ = 0)
    (hgrow : (qbufRealloc q₂ (sizeShl1 (qbufSize q₂)) io.grow).1 ≠ 0) : io.runsOut rbuf = true := by
  rw [RecvIo.runsOut, hb, orFail_some, ok_bind, hs, ok_bind, hc]
  simp [hfull, hgrow]

/-- The kinds of moves `zsocket_handle_recv` makes before its callback. -/
def recvHeadMay (s : Sid) (io : RecvIo) (a : Act) : Prop :=
  a = .log ∨ a = .receive s ∨ a = .recvFail s ∧ io.nrecv = -1

/-- The kinds of moves `zsocket_handle_recv` makes after its callback: the socket is closed when the
buffer runs out, once more if the callback has closed it. -/
def recvTailMay (s : Sid) (rbuf : Option QBuf) (io : RecvIo) (a : Act) : Prop :=
  a = .receive s ∨ a = .abandon s ∧ io.runsOut rbuf ∨
    a = .recount s ∧ io.runsOut rbuf ∧ closes io.script s

/-- The kinds of moves of `zsocket_handle_recv` on the socket `s` with fields `z`. -/
def recvMay (s : Sid) (z : ZSocket) (io : RecvIo) (a : Act) : Prop :=
  recvHeadMay s io a ∨ scriptMay io.script a ∨ z.type ≠ .server ∧ recvTailMay s z.rbuf io a

/-- Receiving and offering are moves. -/
theorem offered_moves {io : RecvIo} {asked : ℕ} {q : QBuf} {cb : Cb} {buf : List UInt8} {len : ℤ}
    (hz : w.mem s = .live z) (hn : z.node = .linked) (he : z.eof = false) :
    Moves (recvHeadMay s io) w (w.offered s z io asked q cb buf len) := by
  refine (Moves.one (.inl rfl) (.log (.recv s asked io.nrecv) trivial)).append
    (Moves.append ?_ (.one (.inl rfl) (.log (.readCb s cb buf len) trivial)))
  by_cases hr : io.nrecv = -1
  · refine .one (.inr (.inr ⟨rfl, hr⟩))
      (.recvFail hz hn he ⟨rfl, rfl, rfl, ?_, rfl, rfl, rfl, rfl, rfl⟩)
    rw [ZSocket.filled, if_pos hr]
  · refine .one (.inr (.inl rfl)) (.receive hz ⟨rfl, rfl, rfl, ?_, rfl, rfl, rfl, rfl, rfl⟩)
    rw [ZSocket.filled, if_neg hr]

/-- What is known when the callback of `zsocket_handle_recv` has returned: the socket is still
listed, with the buffer it was offered, and EOF only if the callback closed it. -/
theorem afterScript {io : RecvIo} {asked : ℕ} {q : QBuf} {cb : Cb} {buf : List UInt8} {len : ℤ}
    {v : World} (hw : w.WF) (hl : w.inLooping = true) (hz : w.mem s = .live z)
    (hn : z.node = .linked) (he : z.eof = false)
    (h : runScript io.script (w.offered s z io asked q cb buf len) = .ok v) :
    Moves (scriptMay io.script) (w.offered s z io asked q cb buf len) v ∧ v.WF ∧
      v.inLooping = true ∧ ∃ y, v.mem s = .live y ∧ z.Stays y ∧ y.rbuf = some q ∧
        (y.eof = true → closes io.script s) := by
  have hhead : Moves (recvHeadMay s io) w (w.offered s z io asked q cb buf len) :=
    offered_moves hz hn he
  have hscript := runScript_moves (hhead.wf hw) (by exact hl) h
  have hfilled : (w.offered s z io asked q cb buf len).mem s = .live (z.filled io q) :=
    World.put_mem_self _ _ _
  have heof : (z.filled io q).eof = false := by
    rw [ZSocket.eof, ZSocket.filled]
    by_cases hr : io.nrecv = -1
    · rw [if_pos hr]; exact hasFlag_and_of_disjoint _ (by decide)
    · rw [if_neg hr]; exact he
  obtain ⟨y, hy, hys, hye⟩ := hscript.stays hfilled hn (not_scriptMay_unlink _ s)
  have hrbuf : y.rbuf = some q := by
    refine hscript.rbuf_eq hfilled hn (not_scriptMay_unlink _ s) ?_ hy
    rintro a ⟨c, -, hc⟩ (rfl | rfl | rfl | rfl) <;> cases c <;> simp [Api.may] at hc
  have hstays : z.Stays y := by
    refine ⟨hys.node, hys.fd, hys.laddr, hys.type, fun hc => ?_⟩
    rw [he] at hc; cases hc
  refine ⟨hscript, hscript.wf (hhead.wf hw),
    (hscript.inLooping_eq (not_scriptMay_mode _)).trans hl, y, hy, hstays, hrbuf, fun hc => ?_⟩
  by_contra hno
  rw [hye heof (fun ha => hno (closes_of_scriptMay ha)) (not_scriptMay_abandon _ s)] at hc
  cases hc

/-- The consumption makes its moves. -/
theorem recvDrain_moves {io : RecvIo} {q : QBuf} {rbuf : Option QBuf}
    (hl : w.inLooping = true) (hz : w.mem s = .live z) (hn : z.node = .linked)
    (hq : z.rbuf = some q) (hc : z.eof = true → closes io.script s)
    (hb : ∃ q₀, io.buffer rbuf = some q₀ ∧ recvStore q₀ io = .ok q)
    (h : recvDrain s (qbufUsed q) io w = .ok w') : Moves (recvTailMay s rbuf io) w w' := by
  obtain ⟨q', hq', ⟨-, rfl⟩ | ⟨-, -, rfl⟩ | ⟨hs, hrc, hfd, z', same, -, rfl⟩⟩ :=
    recvDrain_cases hl hz hq h
  · exact .one (.inl rfl) (.receive hz ⟨rfl, rfl, rfl, rfl, rfl, rfl, rfl, rfl, rfl⟩)
  · exact .one (.inl rfl) (.receive hz ⟨rfl, rfl, rfl, rfl, rfl, rfl, rfl, rfl, rfl⟩)
  · obtain ⟨q₀, hq₀, hstore⟩ := hb
    have hout := RecvIo.runsOut_of hq₀ hstore hq' hs hrc
    cases he : z.eof with
    | false => exact .one (.inr (.inl ⟨rfl, hout⟩)) (.abandon hz hn he hfd (by decide) same)
    | true => exact .one (.inr (.inr ⟨rfl, hout, hc he⟩)) (.recount hz hn he hfd (by decide) same)

/-- **`zsocket_handle_recv` makes its moves.** -/
theorem zsocketHandleRecv_moves {io : RecvIo} (hw : w.WF) (hl : w.inLooping = true)
    (hz : w.mem s = .live z) (h : zsocketHandleRecv s io w = .ok w') :
    Moves (recvMay s z io) w w' := by
  obtain ⟨y, hy, ht, he, -,
    ⟨-, cb, h⟩ | ⟨-, -, rfl⟩ | ⟨hs, q, q', cb, buf, len, v, hb, hstore, -, -, h,
    -, hdrain⟩⟩ := zsocketHandleRecv_cases h
  · have hlog : Move .log w (w.log (.connectionCb s cb)) := .log _ trivial
    exact (Moves.one (.inl (.inl rfl)) hlog).append
      ((runScript_moves (hlog.wf hw) hl h).mono fun a ha => .inr (.inl ha))
  · exact .none
  · obtain rfl : z = y := Slot.live.inj (hz.symm.trans hy)
    have hn := hw.linked_of_typed hz ht he
    obtain ⟨hscript, hv, hvl, x, hx, hxs, hxr, hxc⟩ := afterScript hw hl hz hn he h
    exact ((offered_moves hz hn he).mono fun a ha => .inl ha).append
      ((hscript.mono fun a ha => .inr (.inl ha)).append
        ((recvDrain_moves hvl hx hxs.node hxr hxc ⟨q, hb, hstore⟩ hdrain).mono
          fun a ha => .inr (.inr ⟨hs, ha⟩)))

/-- The kinds of moves of `zsocket_handle_send`. -/
def sendMay (s : Sid) (a : Act) : Prop := a = .log ∨ a = .touch s ∨ a = .abandon s

/-- **`zsocket_handle_send` makes its moves.** -/
theorem zsocketHandleSend_moves {io : SendIo} (hw : w.WF) (hl : w.inLooping = true)
    (h : zsocketHandleSend s io w = .ok w') : Moves (sendMay s) w w' := by
  obtain ⟨z, q, hz, ht, he, -, hq, ⟨-, rfl⟩ | ⟨-, -, offered, -, hcases⟩⟩ :=
    zsocketHandleSend_cases hl h
  · exact .none
  · have hn := hw.linked_of_typed hz ht he
    have hlog : Move .log w (w.log (.send s offered io.nsend)) := .log _ trivial
    refine (Moves.one (.inl rfl) hlog).append ?_
    obtain ⟨-, hfd, z', same, -, rfl⟩ | ⟨-, -, rfl⟩ | ⟨-, q', -,
        ⟨-, hfd, z', same, -, rfl⟩ | ⟨-, rfl⟩⟩ :=
      hcases
    · exact .one (.inr (.inr rfl)) (.abandon hz hn he hfd (by decide) same)
    · exact .none
    · exact .one (.inr (.inr rfl)) (.abandon hz hn he hfd (by decide) same)
    · exact .one (.inr (.inl rfl))
        (.touch hz ⟨rfl, rfl, rfl, rfl, rfl, rfl, rfl, rfl, by rw [hq]; rfl⟩ rfl)

/-! ## One iteration of the poll -/

/-- A descriptor can be tested exactly when it is in range. -/
theorem fdIsset_eq_ok {d : ℤ} {fds : Finset ℤ} {b : Bool} :
    World.fdIsset d fds = .ok b ↔ World.InRange d ∧ b = decide (d ∈ fds) := by
  unfold World.fdIsset World.InRange
  by_cases hd : 0 ≤ d ∧ d < FD_SETSIZE <;> simp [hd, eq_comm]

/-- **The ways an iteration of the poll returns.** -/
theorem pollVisit_cases {R W : Finset ℤ} {io : VisitIo} {b : Bool}
    (h : pollVisit R W pos io w = .ok (b, w')) :
    ∃ z v y, w.mem pos = .live z ∧ World.InRange z.fd ∧
      ((z.fd ∈ R ∧ zsocketHandleRecv pos io.recv w = .ok v) ∨ (z.fd ∉ R ∧ v = w)) ∧
      v.mem pos = .live y ∧ World.InRange y.fd ∧
      ((y.fd ∈ W ∧ zsocketHandleSend pos io.send v = .ok w') ∨ (y.fd ∉ W ∧ w' = v)) ∧
      b = (decide (z.fd ∈ R) || decide (y.fd ∈ W)) := by
  obtain ⟨z, hz, h⟩ := bind_eq_ok.mp h
  obtain ⟨r, hr, h⟩ := bind_eq_ok.mp h
  obtain ⟨v, hv, h⟩ := bind_eq_ok.mp h
  obtain ⟨y, hy, h⟩ := bind_eq_ok.mp h
  obtain ⟨b', hb, h⟩ := bind_eq_ok.mp h
  obtain ⟨u, hu, h⟩ := bind_eq_ok.mp h
  obtain ⟨hzr, rfl⟩ := fdIsset_eq_ok.mp hr
  obtain ⟨hyr, rfl⟩ := fdIsset_eq_ok.mp hb
  cases h
  refine ⟨z, v, y, World.deref_eq_ok.mp hz, hzr, ?_, World.deref_eq_ok.mp hy, hyr, ?_, rfl⟩
  · by_cases hd : z.fd ∈ R
    · exact .inl ⟨hd, by simpa [hd] using hv⟩
    · exact .inr ⟨hd, by simpa [hd, eq_comm] using hv⟩
  · by_cases hd : y.fd ∈ W
    · exact .inl ⟨hd, by simpa [hd] using hu⟩
    · exact .inr ⟨hd, by simpa [hd, eq_comm] using hu⟩

/-- The kinds of moves of an iteration of the poll. -/
def visitMay (pos : Sid) (z : ZSocket) (R : Finset ℤ) (io : VisitIo) (a : Act) : Prop :=
  z.fd ∈ R ∧ recvMay pos z io.recv a ∨ sendMay pos a

/-- No receive handler unlinks a socket. -/
theorem not_recvMay_unlink {io : RecvIo} {t : Sid} : ¬ recvMay s z io (.unlink t) := by
  rintro (h | h | ⟨-, h⟩)
  · simp [recvHeadMay] at h
  · exact not_scriptMay_unlink _ _ h
  · simp [recvTailMay] at h

/-- No receive handler changes the mode. -/
theorem not_recvMay_mode {io : RecvIo} : ¬ recvMay s z io .mode := by
  rintro (h | h | ⟨-, h⟩)
  · simp [recvHeadMay] at h
  · exact not_scriptMay_mode _ h
  · simp [recvTailMay] at h

theorem not_visitMay_unlink {R : Finset ℤ} {io : VisitIo} {t : Sid} :
    ¬ visitMay pos z R io (.unlink t) := by
  rintro (⟨-, h⟩ | h)
  · exact not_recvMay_unlink h
  · simp [sendMay] at h

theorem not_visitMay_mode {R : Finset ℤ} {io : VisitIo} : ¬ visitMay pos z R io .mode := by
  rintro (⟨-, h⟩ | h)
  · exact not_recvMay_mode h
  · simp [sendMay] at h

/-- **An iteration of the poll makes its moves.** -/
theorem pollVisit_moves {R W : Finset ℤ} {io : VisitIo} {b : Bool} (hw : w.WF)
    (hl : w.inLooping = true) (hz : w.mem pos = .live z)
    (h : pollVisit R W pos io w = .ok (b, w')) : Moves (visitMay pos z R io) w w' := by
  obtain ⟨z₁, v, y, hz₁, -, hrecv, -, -, hsend, -⟩ := pollVisit_cases h
  obtain rfl : z = z₁ := Slot.live.inj (hz.symm.trans hz₁)
  have hhead : Moves (visitMay pos z R io) w v ∧ v.inLooping = true := by
    obtain ⟨hr, hv⟩ | ⟨-, rfl⟩ := hrecv
    · have hm := zsocketHandleRecv_moves hw hl hz hv
      exact ⟨hm.mono fun a ha => .inl ⟨hr, ha⟩, (hm.inLooping_eq not_recvMay_mode).trans hl⟩
    · exact ⟨.none, hl⟩
  obtain ⟨-, hv⟩ | ⟨-, rfl⟩ := hsend
  · exact hhead.1.append
      ((zsocketHandleSend_moves (hhead.1.wf hw) hhead.2 hv).mono fun a ha => .inr ha)
  · exact hhead.1

/-! ## One iteration of the deferred closes -/

/-- The kinds of moves of the teardown of a closed socket. -/
def reapMay (pos : Sid) (z : ZSocket) (w : World) (a : Act) : Prop :=
  a = .unlink pos ∨ a = .release pos ∨ a = .free pos ∨
    ∃ t ∈ w.socks, t ≠ pos ∧ a = .close t ∧ z.type = .server ∧
      ∃ y, w.mem t = .live y ∧ y.laddr.sinPort = z.laddr.sinPort

/-- A cascade closes sockets with its port. -/
theorem cascade_moves {port : UInt16} {l : List Sid} (hw : w.WF) (hl : w.inLooping = true)
    (hmem : ∀ s ∈ l, s ∈ w.socks) (h : cascade port l w = .ok w') :
    Moves (fun a => ∃ t ∈ l, a = .close t ∧ ∃ y, w.mem t = .live y ∧ y.laddr.sinPort = port)
      w w' := by
  induction l generalizing w with
  | nil => cases h; exact .none
  | cons t l ih =>
      rw [cascade, List.foldlM_cons] at h
      obtain ⟨w₁, hb, h⟩ := bind_eq_ok.mp h
      obtain ⟨⟨hw₁, hl₁⟩, hs₁⟩ := cascadeBody_keeps ⟨hw, hl⟩ (hmem t (by simp)) hb
      have hhead : Moves (fun a => a = .close t ∧ ∃ y, w.mem t = .live y ∧ y.laddr.sinPort = port)
          w w₁ := by
        obtain ⟨y, hy, ⟨-, rfl⟩ | ⟨hp, he, hfd, rfl⟩⟩ := (cascadeBody_looping hl).mp hb
        · exact .none
        · exact .one ⟨rfl, y, hy, hp⟩ (.close hy (hw.linked_of_open hy he hfd.1) he hfd)
      have htail := ih hw₁ hl₁ (fun s hs => hs₁ ▸ hmem s (by simp [hs])) h
      refine (hhead.mono ?_).append (htail.mono ?_)
      · rintro a ⟨rfl, hy⟩
        exact ⟨t, by simp, rfl, hy⟩
      · rintro a ⟨u, hu, rfl, y, hy, hp⟩
        -- the address a socket had before the cascade is the one it has now
        obtain ⟨x, hx, hxn⟩ := hw.live_of_mem (hmem u (by simp [hu]))
        obtain ⟨x', hx', hxs, -⟩ := hhead.stays hx hxn (by rintro ⟨hc, -⟩; cases hc)
        obtain rfl : x' = y := Slot.live.inj (hx'.symm.trans hy)
        exact ⟨u, by simp [hu], rfl, x, hx, by rw [← hxs.laddr]; exact hp⟩

/-- **The teardown of a closed socket makes its moves.** -/
theorem reap_moves (hw : w.WF) (hl : w.inLooping = true) (hz : w.mem pos = .live z)
    (hn : z.node = .linked) (he : z.eof = true) (h : reap pos z w = .ok w') :
    Moves (reapMay pos z w) w w' := by
  obtain ⟨v, hv, h⟩ := bind_eq_ok.mp h
  cases h
  have hself : (w.unlinkedWorld pos z).mem pos = .live z.unlinked := World.put_mem_self _ _ _
  have hother : ∀ t, t ≠ pos → (w.unlinkedWorld pos z).mem t = w.mem t :=
    fun t ht => World.put_mem_of_ne _ ht _
  have hunlink : Move (.unlink pos) w (w.unlinkedWorld pos z) := .unlink hz hn he
  have hcascade :
      Moves (reapMay pos z w) (w.unlinkedWorld pos z) v ∧ v.mem pos = .live z.unlinked := by
    unfold unlinkCascade at hv
    by_cases ht : z.type = .server
    · rw [if_pos ht] at hv
      have hwu := hw.unlinkedWorld hz he
      obtain ⟨-, -, -, hmem⟩ := cascade_keeps hwu hl (fun _ h => h) hv
      refine ⟨(cascade_moves hwu hl (fun _ h => h) hv).mono ?_, ?_⟩
      · rintro a ⟨t, hts, rfl, y, hy, hp⟩
        have hts' := (hw.nodup.mem_erase_iff).mp hts
        exact .inr
          (.inr (.inr ⟨t, hts'.2, hts'.1, rfl, ht, y, (hother t hts'.1).symm.trans hy, hp⟩))
      · rw [hmem pos hw.nodup.not_mem_erase, hself]
    · rw [if_neg ht] at hv
      cases hv
      exact ⟨.none, hself⟩
  have hrelease : Move (.release pos) v (v.releasedWorld pos z.unlinked) := .release hcascade.2 rfl
  refine (Moves.one (.inl rfl) hunlink).append (hcascade.1.append
    ((Moves.one (.inr (.inl rfl)) hrelease).append ?_))
  unfold World.reapedWorld
  by_cases ht : z.unlinked.type = .connection
  · rw [if_pos ht]
    exact .one (.inr (.inr (.inl rfl))) (.free (World.put_mem_self _ _ _) rfl)
  · rw [if_neg ht]
    exact .none

/-- The kinds of moves of an iteration of `zsocket_do_close`. -/
def closeVisitMay (pos : Sid) (z : ZSocket) (w : World) (io : CloseIo) (a : Act) : Prop :=
  a = .abandon pos ∧ z.stale io.now = true ∧ z.eof = false ∨
    a = .recount pos ∧ z.stale io.now = true ∧ z.eof = true ∨
    (z.stale io.now = true ∨ z.eof = true) ∧ reapMay pos z w a

/-- **An iteration of `zsocket_do_close` makes its moves.** -/
theorem doCloseVisit_moves {io : CloseIo} (hw : w.WF) (hl : w.inLooping = true)
    (hz : w.mem pos = .live z) (hn : z.node = .linked) (h : doCloseVisit pos io w = .ok w') :
    Moves (closeVisitMay pos z w io) w w' := by
  obtain ⟨-, -, rfl⟩ | ⟨-, he, h⟩ | ⟨hs, hfd, h⟩ := (doCloseVisit_eq_ok hw hl hz hn).mp h
  · exact .none
  · exact (reap_moves hw hl hz hn he h).mono fun a ha => .inr (.inr ⟨.inr he, ha⟩)
  · have same : ZSocket.SameControl { z with state := z.state &&& ZS_S_TIMEOUT }
        { z with state := z.state &&& ZS_S_TIMEOUT } :=
          ⟨rfl, rfl, rfl, rfl, rfl, rfl, rfl, rfl, rfl⟩
    have hclose : Moves (closeVisitMay pos z w io) w (w.timedOutWorld pos z) := by
      cases he : z.eof with
      | false => exact .one (.inl ⟨rfl, hs, he⟩) (.abandon hz hn he hfd (by decide) same)
      | true => exact .one (.inr (.inl ⟨rfl, hs, he⟩)) (.recount hz hn he hfd (by decide) same)
    refine hclose.append ((reap_moves (hw.timedOutWorld hz hn) hl (World.put_mem_self _ _ _) hn
      (ZSocket.closed_eof _ _) h).mono ?_)
    rintro a (rfl | rfl | rfl | ⟨t, ht, hts, rfl, hserver, y, hy, hp⟩)
    · exact .inr (.inr ⟨.inl hs, .inl rfl⟩)
    · exact .inr (.inr ⟨.inl hs, .inr (.inl rfl)⟩)
    · exact .inr (.inr ⟨.inl hs, .inr (.inr (.inl rfl))⟩)
    · refine .inr (.inr ⟨.inl hs, .inr (.inr (.inr ⟨t, ht, hts, rfl, hserver, y, ?_, hp⟩))⟩)
      exact ((World.put_mem_of_ne _ hts _).trans (World.put_mem_of_ne _ hts _)).symm.trans hy

end LibZio
