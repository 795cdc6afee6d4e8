import LibZio.Zsocket.Watching

/-! # The poll does not abort

The ready sets of `zsocket_poll` are a snapshot taken before any callback runs. A callback that
closes a socket which is still to be handled, or stops reading from it, makes the handler of that
socket abort, and so does an error branch that clears the enable bits of the visited socket before
its send handler runs. In every run that keeps clear of these, the assertions of a handler hold
whenever the poll calls it, and no step aborts in a handler. -/

namespace LibZio

variable {w w' : World} {s t pos : Sid} {y z : ZSocket}

/-! ## What callbacks do to other sockets -/

/-- Whether `t` is read from after a call, if it is before. -/
def Api.readsAfter (t : Sid) (on : Bool) : Api → Bool
  | .readStart u _ => if u = t then true else on
  | .readStop u => if u = t then false else on
  | _ => on

/-- Whether `t` is read from after a callback, if it is before. -/
def readsAfter (script : List Api) (t : Sid) (on : Bool) : Bool :=
  script.foldl (fun on c => c.readsAfter t on) on

/-- `z'` is the listed socket `z` after a callback: reading is on or off as it says, and writing is
on if it was. -/
structure ZSocket.Left (z z' : ZSocket) (reads : Bool) : Prop where
  stays : z.Stays z'
  read : z'.readEnable = reads
  write : z.writeEnable = true → z'.writeEnable = true
  wbuf : z.wbuf.isSome → z'.wbuf.isSome

/-- A socket that nothing happens to. -/
theorem ZSocket.Left.refl (hn : z.node = .linked) : z.Left z z.readEnable :=
  ⟨.refl hn, rfl, id, id⟩

/-- A move keeps the enable bits of a listed socket it does not concern in this respect. -/
theorem Move.left {a : Act} (m : Move a w w') (hz : w.mem s = .live z) (hn : z.node = .linked)
    (h : a ≠ .unlink s) (hw : a ≠ .watch s) (hu : a ≠ .unwatch s) (hr : a ≠ .recvFail s)
    (hb : a ≠ .abandon s) (hc : a ≠ .recount s) :
    ∃ z', w'.mem s = .live z' ∧ z.Left z' z.readEnable := by
  obtain ⟨z', hz', hstays, -⟩ := m.stays hz hn h
  suffices hrest : z'.readEnable = z.readEnable ∧ (z.writeEnable = true → z'.writeEnable = true) ∧
      (z.wbuf.isSome → z'.wbuf.isSome) from ⟨z', hz', hstays, hrest.1, hrest.2.1, hrest.2.2⟩
  by_cases hs : a.socket = some s
  · cases m with
    | log | mode => cases hs
    | @watch _ u => exact absurd (congrArg Act.watch (Option.some.inj hs)) hw
    | @unwatch _ u => exact absurd (congrArg Act.unwatch (Option.some.inj hs)) hu
    | @recvFail _ u => exact absurd (congrArg Act.recvFail (Option.some.inj hs)) hr
    | @abandon _ u => exact absurd (congrArg Act.abandon (Option.some.inj hs)) hb
    | @recount _ u => exact absurd (congrArg Act.recount (Option.some.inj hs)) hc
    | @unlink _ u => exact absurd (congrArg Act.unlink (Option.some.inj hs)) h
    | @init _ u hunused =>
        obtain rfl : u = s := Option.some.inj hs
        rw [hz] at hunused; cases hunused
    | @«open» _ u x x' fd source live node =>
        obtain rfl : u = s := Option.some.inj hs
        obtain rfl : z = x := Slot.live.inj (hz.symm.trans live)
        rw [hn] at node; cases node
    | @watchWrite _ u x q live =>
        obtain rfl : u = s := Option.some.inj hs
        obtain rfl : z = x := Slot.live.inj (hz.symm.trans live)
        obtain rfl := Slot.live.inj ((World.put_mem_self _ _ _).symm.trans hz')
        exact ⟨hasFlag_or_of_disjoint _ (by decide), fun _ => hasFlag_or_self _ (by decide),
          fun _ => rfl⟩
    | @touch _ u x x' live same | @receive _ u x x' live same =>
        obtain rfl : u = s := Option.some.inj hs
        obtain rfl : z = x := Slot.live.inj (hz.symm.trans live)
        obtain rfl := Slot.live.inj ((World.put_mem_self _ _ _).symm.trans hz')
        refine ⟨by rw [ZSocket.readEnable, same.state], fun hon => ?_, fun hsome => ?_⟩
        · rw [ZSocket.writeEnable, same.state]; exact hon
        · rw [same.wbuf]; exact hsome
    | @close _ u x cb live =>
        obtain rfl : u = s := Option.some.inj hs
        obtain rfl : z = x := Slot.live.inj (hz.symm.trans live)
        obtain rfl := Slot.live.inj ((World.put_mem_self _ _ _).symm.trans hz')
        exact ⟨hasFlag_or_of_disjoint _ (by decide),
          fun hon => (hasFlag_or_of_disjoint _ (by decide)).trans hon, id⟩
    | @release _ u x live node | @«free» _ u x live node =>
        obtain rfl : u = s := Option.some.inj hs
        obtain rfl : z = x := Slot.live.inj (hz.symm.trans live)
        rw [hn] at node; cases node
  · obtain rfl := Slot.live.inj (((m.mem_of_ne hs).trans hz).symm.trans hz')
    exact ⟨rfl, id, id⟩

/-- A sequence of such moves. -/
theorem Moves.left {P : Act → Prop} (m : Moves P w w') (hz : w.mem s = .live z)
    (hn : z.node = .linked) (h : ¬ P (.unlink s)) (hw : ¬ P (.watch s)) (hu : ¬ P (.unwatch s))
    (hr : ¬ P (.recvFail s)) (hb : ¬ P (.abandon s)) (hc : ¬ P (.recount s)) :
    ∃ z', w'.mem s = .live z' ∧ z.Left z' z.readEnable := by
  induction m with
  | refl => exact ⟨z, hz, .refl hn⟩
  | tail _ hm ih =>
      obtain ⟨a, ha, hm⟩ := hm
      obtain ⟨y, hy, hy'⟩ := ih
      obtain ⟨z', hz', hleft⟩ :=
        hm.left hy hy'.stays.node (fun e => h (e ▸ ha)) (fun e => hw (e ▸ ha))
          (fun e => hu (e ▸ ha)) (fun e => hr (e ▸ ha)) (fun e => hb (e ▸ ha)) fun e => hc (e ▸ ha)
      exact ⟨z', hz', hy'.stays.trans hleft.stays, hleft.read.trans hy'.read,
        fun hon => hleft.write (hy'.write hon), fun hsome => hleft.wbuf (hy'.wbuf hsome)⟩

/-- A listed socket cannot be made to listen. -/
theorem zsocketListen_linked {addr : SockaddrIn} {cb : Option Cb} {io : ListenIo} {r : ℤ}
    (hz : w.mem s = .live z) (hn : z.node = .linked)
    (h : zsocketListen s addr cb io w = .ok (r, w')) : w'.mem s = w.mem s := by
  obtain ⟨z₀, hz₀, -, -, ⟨-, -, rfl⟩ | ⟨fd, -, -, ⟨-, -, rfl⟩ | ⟨-, hn₀, -⟩⟩⟩ :=
    zsocketListen_eq_ok.mp h
  · rfl
  · rfl
  · obtain rfl : z = z₀ := Slot.live.inj (hz.symm.trans hz₀)
    exact absurd hn hn₀

/-- **What an API call made in the loop leaves of a listed socket.** -/
theorem Api.run_left (c : Api) (hw : w.WF) (hl : w.inLooping = true) (hz : w.mem s = .live z)
    (hn : z.node = .linked) (h : c.run w = .ok w') :
    ∃ z', w'.mem s = .live z' ∧ z.Left z' (c.readsAfter s z.readEnable) ∧
      (z.eof = false → c.closes s = false → z'.eof = false) := by
  have hm := c.run_moves hw h
  rw [hl] at hm
  have hno : ∀ a, (a = .unlink s ∨ a = .recvFail s ∨ a = .abandon s ∨ a = .recount s) →
      ¬ c.may true a := by
    rintro a (rfl | rfl | rfl | rfl) <;> cases c <;> simp [Api.may]
  have heof : ∀ z', w'.mem s = .live z' → z.eof = false → c.closes s = false → z'.eof = false := by
    intro z' hz' he hc
    obtain ⟨x, hx, -, hxe⟩ := hm.stays hz hn (hno _ (.inl rfl))
    obtain rfl : x = z' := Slot.live.inj (hx.symm.trans hz')
    refine hxe he (fun hmay => ?_) (hno _ (.inr (.inr (.inl rfl))))
    cases c <;> simp [Api.may] at hmay
    case close u cb => simp [Api.closes, hmay] at hc
  -- a call that neither starts nor stops reading from `s` makes no move that concerns it
  have plain : ¬ c.may true (.watch s) → ¬ c.may true (.unwatch s) →
      c.readsAfter s z.readEnable = z.readEnable →
      ∃ z', w'.mem s = .live z' ∧ z.Left z' (c.readsAfter s z.readEnable) ∧
        (z.eof = false → c.closes s = false → z'.eof = false) := by
    intro hwatch hunwatch hreads
    obtain ⟨z', hz', hleft⟩ := hm.left hz hn (hno _ (.inl rfl)) hwatch hunwatch
      (hno _ (.inr (.inl rfl))) (hno _ (.inr (.inr (.inl rfl)))) (hno _ (.inr (.inr (.inr rfl))))
    rw [hreads]
    exact ⟨z', hz', hleft, heof z' hz'⟩
  cases c with
  | readStart u cb =>
      by_cases hu : u = s
      · subst hu
        obtain ⟨z', hz', hstays, -⟩ := (zsocketReadStart_move hw h).stays hz hn (by simp)
        refine ⟨z', hz', ⟨hstays, ?_, ?_, ?_⟩, heof z' hz'⟩ <;>
          cases zsocketReadStart_move hw h with
          | @watch _ _ x cb live =>
              obtain rfl : z = x := Slot.live.inj (hz.symm.trans live)
              obtain rfl := Slot.live.inj ((World.put_mem_self _ _ _).symm.trans hz')
              first
                | (simp only [Api.readsAfter, if_true]; exact hasFlag_or_self _ (by decide))
                | exact fun hon => (hasFlag_or_of_disjoint _ (by decide)).trans hon
                | exact id
      · refine plain (by simpa [Api.may] using Ne.symm hu) (by simp [Api.may]) ?_
        simp [Api.readsAfter, hu]
  | readStop u =>
      by_cases hu : u = s
      · subst hu
        obtain ⟨z', hz', hstays, -⟩ := (zsocketReadStop_move hw h).stays hz hn (by simp)
        refine ⟨z', hz', ⟨hstays, ?_, ?_, ?_⟩, heof z' hz'⟩ <;>
          cases zsocketReadStop_move hw h with
          | @unwatch _ _ x live =>
              obtain rfl : z = x := Slot.live.inj (hz.symm.trans live)
              obtain rfl := Slot.live.inj ((World.put_mem_self _ _ _).symm.trans hz')
              first
                | (simp only [Api.readsAfter, if_true]; exact hasFlag_andNot_self _ _)
                | exact fun hon => (hasFlag_andNot_of_disjoint _ (by decide)).trans hon
                | exact id
      · refine plain (by simp [Api.may]) (by simpa [Api.may] using Ne.symm hu) ?_
        simp [Api.readsAfter, hu]
  | listen u addr cb io =>
      by_cases hu : u = s
      · subst hu
        obtain ⟨⟨r, v⟩, hc, rfl⟩ := map_eq_ok.mp h
        -- a listed socket cannot be listed again, so that the call has failed
        have hmem := zsocketListen_linked hz hn hc
        exact ⟨z, hmem.trans hz, .refl hn, heof z (hmem.trans hz)⟩
      · exact plain (by simpa [Api.may] using Ne.symm hu) (by simp [Api.may]) rfl
  | init | close | connect | accept | write | sdataAlloc | sdataFree | setTimeout =>
      exact plain (by simp [Api.may]) (by simp [Api.may]) rfl

/-- **What a callback leaves of a listed socket.** -/
theorem runScript_left {script : List Api} (hw : w.WF) (hl : w.inLooping = true)
    (hz : w.mem s = .live z) (hn : z.node = .linked) (h : runScript script w = .ok w') :
    ∃ z', w'.mem s = .live z' ∧ z.Left z' (readsAfter script s z.readEnable) ∧
      (z.eof = false → closes script s = false → z'.eof = false) := by
  induction script generalizing w z with
  | nil => cases h; exact ⟨z, hz, .refl hn, fun he _ => he⟩
  | cons c cs ih =>
      obtain ⟨v, hc, h⟩ := bind_eq_ok.mp h
      have hm := c.run_moves hw hc
      obtain ⟨y, hy, hyl, hye⟩ := c.run_left hw hl hz hn hc
      obtain ⟨z', hz', hzl, hze⟩ := ih (hm.wf hw) ((hm.inLooping_eq (c.not_may_mode _)).trans hl) hy
        hyl.stays.node h
      refine ⟨z', hz', ⟨hyl.stays.trans hzl.stays, ?_, fun hon => hzl.write (hyl.write hon),
        fun hsome => hzl.wbuf (hyl.wbuf hsome)⟩, fun he hcl => ?_⟩
      · rw [hzl.read, hyl.read]; rfl
      · obtain ⟨hc₁, hc₂⟩ := (Bool.or_eq_false_iff).mp hcl
        exact hze (hye he hc₁) hc₂

/-! ## What handlers do -/

/-- The calls the callback of a receive handler makes: none when there is no memory for the
buffer. -/
def RecvIo.calls (io : RecvIo) (z : ZSocket) : List Api :=
  if z.type = .server ∨ (io.buffer z.rbuf).isSome then io.script else []

/-- **What a receive handler leaves of another socket.** -/
theorem zsocketHandleRecv_other {io : RecvIo} (hw : w.WF) (hl : w.inLooping = true)
    (hz : w.mem pos = .live z) (hy : w.mem t = .live y) (hn : y.node = .linked) (hne : t ≠ pos)
    (h : zsocketHandleRecv pos io w = .ok w') :
    ∃ y', w'.mem t = .live y' ∧ y.Left y' (readsAfter (io.calls z) t y.readEnable) ∧
      (y.eof = false → closes (io.calls z) t = false → y'.eof = false) := by
  obtain ⟨z₁, hz₁, htype, he, -, ⟨hs, cb, hrun⟩ | ⟨hs, hb, rfl⟩ | ⟨hs, q, q', cb, buf, len, v, hb,
    hstore, -, -, hrun, -, hdrain⟩⟩ := zsocketHandleRecv_cases h
  all_goals obtain rfl : z = z₁ := Slot.live.inj (hz.symm.trans hz₁)
  · have hlog : Move .log w (w.log (.connectionCb pos cb)) := .log _ trivial
    rw [RecvIo.calls, if_pos (.inl hs)]
    exact runScript_left (hlog.wf hw) hl hy hn hrun
  · rw [RecvIo.calls, if_neg (by simp [hs, hb])]
    exact ⟨y, hy, .refl hn, fun he _ => he⟩
  · rw [RecvIo.calls, if_pos (.inr (by simp [hb]))]
    have hzn := hw.linked_of_typed hz htype he
    have hhead : Moves (recvHeadMay pos io) w (w.offered pos z io (qbufSpare q) q' cb buf len) :=
      offered_moves hz hzn he
    obtain ⟨-, hv, hvl, x, hx, hxs, hxr, hxc⟩ := afterScript hw hl hz hzn he hrun
    have hyo : (w.offered pos z io (qbufSpare q) q' cb buf len).mem t = .live y :=
      (World.put_mem_of_ne _ hne _).trans hy
    obtain ⟨y', hy', hleft, heof⟩ := runScript_left (hhead.wf hw) hl hyo hn hrun
    refine ⟨y', ?_, hleft, heof⟩
    rw [(recvDrain_moves hvl hx hxs.node hxr hxc ⟨q, hb, hstore⟩ hdrain).mem_of_not, hy']
    rintro a (rfl | ⟨rfl, -⟩ | ⟨rfl, -⟩) <;> simpa [Act.socket] using hne.symm

/-- A send handler leaves another socket alone. -/
theorem zsocketHandleSend_other {io : SendIo} (hw : w.WF) (hl : w.inLooping = true) (hne : t ≠ pos)
    (h : zsocketHandleSend pos io w = .ok w') : w'.mem t = w.mem t := by
  refine (zsocketHandleSend_moves hw hl h).mem_of_not ?_
  rintro a (rfl | rfl | rfl) <;> simp [Act.socket, hne.symm]

/-- Whether a receive handler leaves its own socket fit for the send handler: its callback does not
close it, the `recv` does not fail and the buffer does not run out. -/
def RecvIo.keepsSending (io : RecvIo) (s : Sid) (z : ZSocket) : Bool :=
  !closes (io.calls z) s &&
    (decide (z.type = .server) || !(io.buffer z.rbuf).isSome ||
      (decide (io.nrecv ≠ -1) && !io.runsOut z.rbuf))

/-- The sockets still to be visited are fit for the handlers the snapshot calls for. -/
def World.ReadyFor (w : World) (R W : Finset ℤ) (l : List Sid) : Prop :=
  ∀ t ∈ l, ∀ y, w.mem t = .live y → (y.fd ∈ R → y.RecvEntry) ∧ (y.fd ∈ W → y.SendEntry)

/-- Whether the visit of `pos` spares the sockets listed behind it: its callback closes none that is
to be handled, and leaves none off that is to be read from; and if its own send handler is still to
run, it is left fit for it. -/
def VisitIo.spares (io : VisitIo) (pos : Sid) (z : ZSocket) (R W : Finset ℤ) (later : List Sid)
    (w : World) : Bool :=
  (later.all fun t => w.check t fun y =>
    (!decide (y.fd ∈ R ∨ y.fd ∈ W) || !closes (io.recv.calls z) t) &&
      (!decide (y.fd ∈ R) || readsAfter (io.recv.calls z) t true)) &&
    (!decide (z.fd ∈ W) || io.recv.keepsSending pos z)

/-- A receive handler that spares the sockets behind it leaves them fit for their handlers. -/
theorem World.ReadyFor.recv {io : VisitIo} {R W : Finset ℤ} {later : List Sid} (hw : w.WF)
    (hl : w.inLooping = true) (hz : w.mem pos = .live z) (hpos : pos ∉ later)
    (hlater : ∀ t ∈ later, t ∈ w.socks) (h : w.ReadyFor R W later)
    (hspare : io.spares pos z R W later w = true)
    (hok : zsocketHandleRecv pos io.recv w = .ok w') : w'.ReadyFor R W later := by
  intro t ht y' hy'
  obtain ⟨y, hy, hn⟩ := hw.live_of_mem (hlater t ht)
  obtain ⟨x, hx, hleft, heof⟩ :=
    zsocketHandleRecv_other hw hl hz hy hn (fun hc => hpos (hc ▸ ht)) hok
  obtain rfl : x = y' := Slot.live.inj (hx.symm.trans hy')
  obtain ⟨hR, hW⟩ := h t ht y hy
  have hcheck := World.of_check (List.all_eq_true.mp ((Bool.and_eq_true _ _).mp hspare).1 t ht) hy
  obtain ⟨hclose, hread⟩ := (Bool.and_eq_true _ _).mp hcheck
  have hopen : y.fd ∈ R ∨ y.fd ∈ W → y.eof = false → x.eof = false := by
    intro hd he
    exact heof he (by simpa [hd] using hclose)
  refine ⟨fun hd => ?_, fun hd => ?_⟩
  · rw [hleft.stays.fd] at hd
    obtain ⟨htype, he, hen⟩ := hR hd
    refine ⟨by rw [hleft.stays.type]; exact htype, hopen (.inl hd) he, ?_⟩
    rw [hleft.read, hen]
    simpa [hd] using hread
  · rw [hleft.stays.fd] at hd
    obtain ⟨htype, he, hen, hbuf⟩ := hW hd
    exact ⟨by rw [hleft.stays.type]; exact htype, hopen (.inr hd) he, hleft.write hen,
      hleft.wbuf hbuf⟩

/-! ## What makes a handler abort -/

/-- The world in which the visit of `pos` decides about its send handler. -/
def World.Received (w : World) (pos : Sid) (R : Finset ℤ) (io : VisitIo) (v : World) : Prop :=
  ∃ z, w.mem pos = .live z ∧
    ((z.fd ∈ R ∧ zsocketHandleRecv pos io.recv w = .ok v) ∨ (z.fd ∉ R ∧ v = w))

/-- What is listed behind `pos`. -/
def later (pos : Sid) (l : List Sid) : List Sid := (l.dropWhile (· ≠ pos)).tail

/-- **One visit leaves the sockets behind it fit.** -/
theorem World.ReadyFor.visit {R W : Finset ℤ} {io : VisitIo} {b : Bool} {l m : List Sid} (hw : w.WF)
    (hl : w.inLooping = true) (hs : w.socks = l ++ pos :: m) (h : w.ReadyFor R W (pos :: m))
    (hspare : ∀ z, w.mem pos = .live z → z.fd ∈ R → io.spares pos z R W m w = true)
    (hok : pollVisit R W pos io w = .ok (b, w')) : w'.ReadyFor R W m := by
  have hnd := hw.nodup
  rw [hs] at hnd
  have hpos : pos ∉ m := (List.nodup_cons.mp (List.nodup_append.mp hnd).2.1).1
  have hbehind : w.ReadyFor R W m := fun t ht => h t (List.mem_cons_of_mem _ ht)
  obtain ⟨z, v, y, hz, -, hrecv, -, -, hsend, -⟩ := pollVisit_cases hok
  have hmid : v.ReadyFor R W m ∧ v.WF ∧ v.inLooping = true := by
    obtain ⟨hd, hv⟩ | ⟨-, rfl⟩ := hrecv
    · have hm := zsocketHandleRecv_moves hw hl hz hv
      exact ⟨hbehind.recv hw hl hz hpos (fun t ht => by rw [hs]; simp [ht]) (hspare z hz hd) hv,
        hm.wf hw, (hm.inLooping_eq not_recvMay_mode).trans hl⟩
    · exact ⟨hbehind, hw, hl⟩
  obtain ⟨-, hu⟩ | ⟨-, rfl⟩ := hsend
  · intro t ht x hx
    have hne : t ≠ pos := fun hc => hpos (hc ▸ ht)
    rw [zsocketHandleSend_other hmid.2.1 hmid.2.2 hne hu] at hx
    exact hmid.1 t ht x hx
  · exact hmid.1

/-- Whether the poll is about to visit `s`, and its readable descriptors pass the test. -/
def Sys.visits (c : Sys) (s : Sid) (p : Finset ℤ → Bool) : Bool :=
  match c.ctl with
  | .poll (some t) fdsRead _ _ => decide (t = s) && p fdsRead
  | _ => false

end LibZio
