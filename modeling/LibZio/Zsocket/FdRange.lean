import LibZio.Zsocket.Refinement

/-! # Calls and the range of a descriptor

The `fd_set` macros are defined on the descriptors below `FD_SETSIZE` alone, and the library gives
them the descriptors of its sockets without a check. As long as every socket has a descriptor that
fits, no call on a registered socket gives them another (`Api.run_ranged`). Whether that stays so is
decided by the calls that put a descriptor into a socket: `zsocket_listen` runs into the macro at
once when it got one that does not fit, and `zsocket_connect` and `zsocket_accept` register it
(`Api.run_unfit`). -/

namespace LibZio

variable {w w' : World} {s t pos : Sid} {z : ZSocket} {c : Api}

/-- A failure other than an index out of the range of an `fd_set`. -/
def Fault.Ranged (e : Fault) : Prop := e ≠ .undefined .fdRange

instance (e : Fault) : Decidable e.Ranged := inferInstanceAs (Decidable (e ≠ .undefined .fdRange))

/-- A failed assertion is no index out of range. -/
theorem ranged_assert (a : Assertion) : Fault.Ranged (.assert a) := fun h => nomatch h

/-- No socket has a descriptor that an `fd_set` has no room for. -/
def World.Fitting (w : World) : Prop := ∀ s z, w.mem s = .live z → z.fd < FD_SETSIZE

/-- Every registered socket has a descriptor in the range of an `fd_set`. -/
def World.FdsInRange (w : World) : Prop :=
  ∀ s ∈ w.socks, ∀ z, w.mem s = .live z → World.InRange z.fd

/-- A socket that a call can still put a descriptor into and register: it is neither EOF nor on the
list. -/
def World.opens (w : World) (s : Sid) : Bool :=
  match w.mem s with
  | .live z => !z.eof && decide (z.node ≠ .linked)
  | _ => false

/-- An open server. -/
def World.serves (w : World) (s : Sid) : Bool :=
  match w.mem s with
  | .live z => !z.eof && decide (z.type = .server)
  | _ => false

/-- The descriptor that a call puts into a socket and registers, or would register. -/
def Api.obtains (w : World) : Api → Option ℕ
  | .connect client _ _ io =>
      if w.opens client ∧ io.connect then io.socket.filter fun fd => (fd : ℤ) ∉ w.openFds else none
  | .listen server _ cb io =>
      if w.opens server ∧ cb.isSome ∧ io.bind then io.socket.filter fun fd => (fd : ℤ) ∉ w.openFds
      else none
  | .accept server io =>
      match io.calloc, io.accept with
      | some conn, some (fd, _) =>
          if w.serves server ∧ w.mem conn = .unused ∧ (fd : ℤ) ∉ w.openFds then some fd else none
      | _, _ => none
  | _ => none

/-- The descriptor that a call obtains fits into an `fd_set`. -/
def Api.ObtainsFit (w : World) (c : Api) : Prop := ∀ fd ∈ c.obtains w, (fd : ℤ) < FD_SETSIZE

/-- Whether a call that has a descriptor watched or no longer watched names a socket that has been
registered. -/
def Api.registered (w : World) : Api → Bool
  | .close s _ | .readStart s _ | .write s _ _ => w.check s fun z => z.node ≠ .self
  | _ => true

instance (w : World) (c : Api) : Decidable (c.ObtainsFit w) :=
  inferInstanceAs (Decidable (∀ fd ∈ c.obtains w, (fd : ℤ) < FD_SETSIZE))

/-! ## The invariant -/

/-- Where every descriptor fits, those of the registered sockets are in range. -/
theorem World.Fitting.fdsInRange (h : w.Fitting) (hw : w.WF) : w.FdsInRange := by
  intro s hs z hz
  exact ⟨(hw.shape_linked hz (hw.linked_of_mem hs hz)).1, h s z hz⟩

/-- A socket that has been registered and is not EOF has a descriptor in range. -/
theorem World.Fitting.inRange (h : w.Fitting) (hw : w.WF) (hz : w.mem s = .live z)
    (he : z.eof = false) (hn : z.node ≠ .self) : World.InRange z.fd := by
  refine ⟨?_, h s z hz⟩
  cases hnode : z.node with
  | self => exact absurd hnode hn
  | linked => exact (hw.shape_linked hz hnode).1
  | poisoned => rw [hw.shape_poisoned hz hnode] at he; cases he

/-- One socket is rewritten, and has a descriptor that fits. -/
theorem World.Fitting.rewritten {x : Slot} (h : w.Fitting)
    (hmem : ∀ t, w'.mem t = if t = s then x else w.mem t)
    (hx : ∀ z, x = .live z → z.fd < FD_SETSIZE) : w'.Fitting := by
  intro t z hz
  rw [hmem t] at hz
  by_cases hts : t = s
  · rw [if_pos hts] at hz
    exact hx z hz
  · rw [if_neg hts] at hz
    exact h t z hz

/-- Writing a socket that has a descriptor that fits. -/
theorem World.Fitting.put (h : w.Fitting) (hz : z.fd < FD_SETSIZE) : (w.put s z).Fitting :=
  h.rewritten (x := .live z) (fun t => World.put_mem w s t z) fun _ hz' => by cases hz'; exact hz

/-- **A move** that opens no socket keeps the descriptors fitting. -/
theorem Move.fitting {a : Act} (m : Move a w w') (h : w.Fitting) (hopen : ∀ s, a ≠ .open s) :
    w'.Fitting := by
  cases m with
  | log | mode => exact h
  | @init _ s hu =>
      refine World.Fitting.put ?_ (by decide)
      split <;> exact h
  | «open» => exact absurd rfl (hopen _)
  | watch live | unwatch live | watchWrite live | close live | unlink live =>
      have hfd := h _ _ live
      exact World.Fitting.put h hfd
  | touch live same | receive live same | recvFail live node eof same =>
      have hfd := h _ _ live
      exact h.put (same.fd.trans_lt hfd)
  | abandon live node eof fd mask same | recount live node eof fd mask same =>
      have hfd := h _ _ live
      have hfd' := same.fd.trans_lt hfd
      exact World.Fitting.put (h.put hfd') hfd'
  | release live => exact World.Fitting.put h (show (-1 : ℤ) < _ by decide)
  | @«free» _ s =>
      exact h.rewritten (x := .freed) (fun t => Function.update_apply ..) fun _ hx => nomatch hx

/-- A sequence of moves that opens no socket keeps the descriptors fitting. -/
theorem Moves.fitting {P : Act → Prop} (m : Moves P w w') (h : w.Fitting)
    (hopen : ∀ s, ¬P (.open s)) : w'.Fitting := by
  induction m with
  | refl => exact h
  | tail _ hm ih =>
      obtain ⟨a, ha, hm⟩ := hm
      exact hm.fitting ih fun s hs => hopen s (hs ▸ ha)

/-! ## Closing -/

/-- What the library reads and does outside of the sets has no index. -/
theorem ranged_deref (w : World) (s : Sid) : FailsIn Fault.Ranged (w.deref s) := by
  unfold World.deref
  cases w.mem s with
  | live z => exact .ok _
  | unused | freed => exact .error (by decide)

theorem ranged_listAdd (w : World) (s : Sid) : FailsIn Fault.Ranged (w.listAdd s) := by
  refine (ranged_deref w s).bind fun z _ => ?_
  cases z.node with
  | self | poisoned => exact .ok _
  | linked => exact .error (by decide)

theorem ranged_listDel (w : World) (s : Sid) : FailsIn Fault.Ranged (w.listDel s) := by
  refine (ranged_deref w s).bind fun z _ => ?_
  cases z.node with
  | self | linked => exact .ok _
  | poisoned => exact .error (by decide)

theorem ranged_openFd (w : World) (fd : ℕ) : FailsIn Fault.Ranged (w.openFd fd) :=
  .ite (fun _ => .error (by decide)) fun _ => .ok _

theorem ranged_zsocketInit (s : Sid) (w : World) : FailsIn Fault.Ranged (zsocketInit s w) := by
  unfold zsocketInit
  cases w.mem s with
  | unused => exact .ok _
  | live | freed => exact .error (by decide)

theorem ranged_watchRead (w : World) {fd : ℤ} (h : World.InRange fd) :
    FailsIn Fault.Ranged (w.watchRead fd) := by
  rw [World.watchRead_eq_ok.mpr ⟨h, rfl⟩]
  exact .ok _

theorem ranged_unwatchRead (w : World) {fd : ℤ} (h : World.InRange fd) :
    FailsIn Fault.Ranged (w.unwatchRead fd) := by
  rw [World.unwatchRead_eq_ok.mpr ⟨h, rfl⟩]
  exact .ok _

theorem ranged_watchWrite (w : World) {fd : ℤ} (h : World.InRange fd) :
    FailsIn Fault.Ranged (w.watchWrite fd) := by
  rw [World.watchWrite_eq_ok.mpr ⟨h, rfl⟩]
  exact .ok _

/-- A close on a descriptor in range, followed by a teardown outside the loop. -/
theorem zsocketCloseWith_ranged {teardown : Sid → World → Res World} {cb : Option Cb}
    (fd : ∀ z, w.mem s = .live z → z.eof = false → World.InRange z.fd)
    (ranged : ∀ z, w.mem s = .live z → z.eof = false → w.inLooping = false →
      FailsIn Fault.Ranged (teardown s (w.closedWorld s z cb))) :
    FailsIn Fault.Ranged (zsocketCloseWith teardown s cb w) := by
  refine (ranged_deref w s).bind fun z hz => FailsIn.bind (.ensure (by decide)) fun _ he => ?_
  rw [World.deref_eq_ok] at hz
  have he : z.eof = false := by simpa using he
  have hfd := fd z hz he
  rw [World.unwatchRead_eq_ok.mpr ⟨hfd, rfl⟩, ok_bind, World.unwatchWrite_eq_ok.mpr ⟨hfd, rfl⟩,
    ok_bind]
  exact .ite (fun _ => .ok _) fun hl => ranged z hz he (eq_false_of_ne_true hl)

/-- A traversal outside the loop that closes registered sockets. Its first match leaves a poisoned
node. -/
theorem forEachEntry_ranged {teardown : Sid → World → Res World} {port : UInt16} {p l : List Sid}
    {fuel : ℕ} (hw : w.WF) (hs : w.socks = p ++ l)
    (ranged : ∀ pos ∈ l, FailsIn Fault.Ranged (zsocketCloseWith teardown pos none w))
    (poisons : ∀ pos w', zsocketCloseWith teardown pos none w = .ok w' →
      ∃ z, w'.mem pos = .live z ∧ z.node = .poisoned) :
    FailsIn Fault.Ranged (forEachEntry (cascadeBody teardown port) fuel l.head? w) := by
  induction l generalizing p fuel with
  | nil => cases fuel <;> exact .ok _
  | cons pos l ih =>
      cases fuel with
      | zero => exact .error (by decide)
      | succ fuel =>
          rw [List.head?_cons, forEachEntry, cascadeBody]
          obtain ⟨z, hz, -⟩ := hw.live_of_mem (s := pos) (by rw [hs]; simp)
          rw [World.deref_eq_ok.mpr hz, ok_bind]
          by_cases hp : z.laddr.sinPort = port
          · rw [if_pos hp]
            refine (ranged pos (List.mem_cons_self ..)).bind fun w₁ h₁ => ?_
            obtain ⟨y, hy, hyn⟩ := poisons pos w₁ h₁
            rw [World.listNext, World.deref_eq_ok.mpr hy, ok_bind, hyn]
            exact .error (by decide)
          · rw [if_neg hp, show (pure w : Res World) = .ok w from rfl, ok_bind, hw.listNext hs,
              ok_bind]
            exact ih (p := p ++ [pos]) (by rw [hs, List.append_assoc]; rfl)
              fun t ht => ranged t (List.mem_cons_of_mem _ ht)

/-- **A teardown outside the loop** gives the sets no index out of range; the induction is on the
nesting of teardowns. -/
theorem _zsocketCloseFuel_ranged {fuel : ℕ} (hw : w.WF) (hl : w.inLooping = false) (h : w.Fitting) :
    FailsIn Fault.Ranged (_zsocketCloseFuel fuel s w) := by
  induction fuel generalizing s w with
  | zero => exact .error (by decide)
  | succ fuel ih =>
      refine (ranged_deref w s).bind fun z hz => FailsIn.bind (.ensure (by decide)) fun _ he => ?_
      refine FailsIn.bind (.ensure (by decide)) fun _ ht => (ranged_listDel w s).bind fun v hv => ?_
      rw [World.deref_eq_ok] at hz
      have he : z.eof = true := by simpa using he
      have hn : z.node = .linked := by
        refine hw.linked_of_eof hz he fun hp => ?_
        rw [World.listDel, World.deref_eq_ok.mpr hz, ok_bind, hp] at hv
        cases hv
      rw [World.listDel, World.deref_eq_ok.mpr hz, ok_bind, hn] at hv
      obtain rfl : w.unlinkedWorld s z = v := Except.ok.inj hv
      have hv : (w.unlinkedWorld s z).WF := hw.unlinkedWorld hz he
      have hvl : (w.unlinkedWorld s z).inLooping = false := hl
      have hfit : (w.unlinkedWorld s z).Fitting := by
        have hfd := h s z hz
        exact World.Fitting.put h hfd
      refine FailsIn.bind (.ite (fun _ => ?_) fun _ => .ok _) fun u _ => ?_
      · refine forEachEntry_ranged hv (p := []) rfl (fun pos hpos => ?_) fun pos w' hc => ?_
        · refine zsocketCloseWith_ranged (fun y hy hye => ?_) fun y hy hye _ => ?_
          · exact hfit.fdsInRange hv pos hpos y hy
          · have hyn := hv.linked_of_mem hpos hy
            have hfd := hfit pos y hy
            exact ih (hv.closedWorld hy hyn none) hvl (World.Fitting.put hfit hfd)
        · obtain ⟨y, hy, hye, hfd, hc⟩ := (zsocketCloseWith_immediate hvl).mp hc
          have hyn := hv.linked_of_open hy hye hfd.1
          obtain ⟨x, -, -, -, -, rfl⟩ :=
            _zsocketCloseFuel_immediate (hv.closedWorld hy hyn none) hvl hc
          exact ⟨_, World.put_mem_self _ _ _, rfl⟩
      · exact (ranged_deref _ s).bind fun _ _ => .ok _

/-- **A close** of a registered socket gives the sets no index out of range. -/
theorem zsocketClose_ranged {cb : Option Cb} (hw : w.WF) (h : w.Fitting)
    (hs : ∀ z, w.mem s = .live z → z.node ≠ .self) :
    FailsIn Fault.Ranged (zsocketClose s cb w) := by
  refine zsocketCloseWith_ranged (fun z hz he => h.inRange hw hz he (hs z hz)) fun z hz he hl => ?_
  have hfd := h.inRange hw hz he (hs z hz)
  exact _zsocketCloseFuel_ranged (hw.closedWorld hz (hw.linked_of_open hz he hfd.1) cb) hl
    (World.Fitting.put h hfd.2)

/-! ## Calls -/

/-- A socket that a call can open. -/
theorem World.opens_eq_true :
    w.opens s = true ↔ ∃ z, w.mem s = .live z ∧ z.eof = false ∧ z.node ≠ .linked := by
  unfold World.opens
  cases w.mem s with
  | live z => simp
  | unused | freed => simp

/-- A server. -/
theorem World.serves_eq_true :
    w.serves s = true ↔ ∃ z, w.mem s = .live z ∧ z.eof = false ∧ z.type = .server := by
  unfold World.serves
  cases w.mem s with
  | live z => simp
  | unused | freed => simp

/-- What `zsocket_connect` obtains. -/
theorem mem_obtains_connect {addr : SockaddrIn} {cb : Option Cb} {io : ConnectIo} {fd : ℕ} :
    fd ∈ (Api.connect s addr cb io).obtains w ↔
      w.opens s = true ∧ io.connect = true ∧ io.socket = some fd ∧ (fd : ℤ) ∉ w.openFds := by
  rw [Api.obtains]
  split
  · next hif => simp [hif, Option.filter_eq_some_iff]
  · next hif =>
    refine iff_of_false nofun fun ⟨hs, hconnect, _⟩ => hif ⟨hs, hconnect⟩

/-- What `zsocket_listen` obtains. -/
theorem mem_obtains_listen {addr : SockaddrIn} {cb : Option Cb} {io : ListenIo} {fd : ℕ} :
    fd ∈ (Api.listen s addr cb io).obtains w ↔ w.opens s = true ∧ cb.isSome = true ∧
      io.bind = true ∧ io.socket = some fd ∧ (fd : ℤ) ∉ w.openFds := by
  rw [Api.obtains]
  split
  · next hif => simp [hif, Option.filter_eq_some_iff]
  · next hif =>
    refine iff_of_false nofun fun ⟨hs, hcb, hbind, _⟩ => hif ⟨hs, hcb, hbind⟩

/-- What `zsocket_accept` obtains. -/
theorem mem_obtains_accept {io : AcceptIo} {fd : ℕ} :
    fd ∈ (Api.accept s io).obtains w ↔ ∃ conn raddr, io.calloc = some conn ∧
      io.accept = some (fd, raddr) ∧
      w.serves s = true ∧ w.mem conn = .unused ∧ (fd : ℤ) ∉ w.openFds := by
  rw [Api.obtains]
  split
  · next conn fd' raddr hcalloc haccept =>
    constructor
    · intro h
      obtain ⟨⟨hs, hu, hfd⟩, heq⟩ := Option.ite_none_right_eq_some.mp h
      cases heq
      exact ⟨conn, raddr, hcalloc, haccept, hs, hu, hfd⟩
    · rintro ⟨conn', raddr', hcalloc', haccept', hs, hu, hfd⟩
      rw [hcalloc] at hcalloc'
      rw [haccept] at haccept'
      cases hcalloc'
      cases haccept'
      exact if_pos ⟨hs, hu, hfd⟩
  · next hno =>
    exact iff_of_false nofun
      fun ⟨conn, raddr, hcalloc, haccept, _⟩ => hno conn fd raddr hcalloc haccept

theorem ranged_zsocketConnect {addr : SockaddrIn} {cb : Option Cb} {io : ConnectIo} :
    FailsIn Fault.Ranged (zsocketConnect s addr cb io w) := by
  refine (ranged_deref w s).bind fun z _ => FailsIn.bind (.ensure (by decide)) fun _ _ => ?_
  cases io.socket with
  | none => exact .ok _
  | some fd =>
      refine (ranged_openFd w fd).bind fun v _ => .ite (fun _ => .ok _) fun _ => ?_
      refine (ranged_listAdd _ s).bind fun u _ => ?_
      cases cb <;> exact .ok _

/-- A listen that obtains a descriptor that fits. -/
theorem zsocketListen_ranged {addr : SockaddrIn} {cb : Option Cb} {io : ListenIo}
    (ho : (Api.listen s addr cb io).ObtainsFit w) :
    FailsIn Fault.Ranged (zsocketListen s addr cb io w) := by
  refine (ranged_deref w s).bind fun z hz => FailsIn.bind (.ensure (by decide)) fun _ he => ?_
  refine FailsIn.bind (.ensure (by decide)) fun _ hcb => ?_
  cases hsocket : io.socket with
  | none => exact .ok _
  | some fd =>
      refine (ranged_openFd w fd).bind fun v hv => .ite (fun _ => .ok _) fun hbind => ?_
      refine (ranged_listAdd _ s).bind fun u hu => ?_
      -- the call gets as far as the set, so that the descriptor is the one it obtains
      have hfit : (fd : ℤ) < FD_SETSIZE := by
        have hnode := not_linked_of_listAdd hu
        have hopens := World.opens_eq_true.mpr
          ⟨z, World.deref_eq_ok.mp hz, by simpa using he, hnode⟩
        have hfresh := (openFd_eq_ok.mp hv).1
        exact ho fd (mem_obtains_listen.mpr
          ⟨hopens, by simpa using hcb, by simpa using hbind, hsocket, hfresh⟩)
      refine (ranged_watchRead _ ⟨Int.natCast_nonneg fd, hfit⟩).bind fun v _ => ?_
      exact (ranged_deref _ s).bind fun y _ => .ok _

theorem ranged_zsocketAccept {io : AcceptIo} : FailsIn Fault.Ranged (zsocketAccept s io w) := by
  refine (ranged_deref w s).bind fun z _ => FailsIn.bind (.ensure (by decide)) fun _ _ => ?_
  cases io.calloc with
  | none => exact .ok _
  | some conn =>
      refine (ranged_zsocketInit conn w).bind fun v hv => ?_
      cases io.accept with
      -- a failed `accept` tears down an object that is not EOF
      | none =>
          obtain ⟨-, rfl⟩ := zsocketInit_eq_ok.mp hv
          refine FailsIn.bind ?_ fun u _ =>
            FailsIn.bind ((ranged_deref u conn).bind fun _ _ => .ok _) fun _ _ => .ok _
          rw [_zsocketClose, _zsocketCloseFuel, World.deref_eq_ok.mpr (World.put_mem_self _ _ _),
            ok_bind]
          exact FailsIn.error (by decide)
      | some fr =>
          refine FailsIn.bind (.ensure (by decide)) fun _ _ =>
            (ranged_openFd v fr.1).bind fun u _ => ?_
          refine (ranged_deref u conn).bind fun c _ => (ranged_listAdd _ conn).bind fun u' _ => ?_
          exact .ok _

theorem zsocketReadStart_ranged {cb : Option Cb} (hw : w.WF) (h : w.Fitting)
    (hs : ∀ z, w.mem s = .live z → z.node ≠ .self) :
    FailsIn Fault.Ranged (zsocketReadStart s cb w) := by
  refine (ranged_deref w s).bind fun z hz => FailsIn.bind (.ensure (by decide)) fun _ he => ?_
  refine FailsIn.bind (.ensure (by decide)) fun _ _ =>
    FailsIn.bind (.ensure (by decide)) fun _ _ => ?_
  rw [World.deref_eq_ok] at hz
  have hfd := h.inRange hw hz (by simpa using he) (hs z hz)
  exact (ranged_watchRead w hfd).bind fun _ _ => .ok _

/-- A socket that reads has been registered. -/
theorem zsocketReadStop_ranged (hw : w.WF) (h : w.Fitting) :
    FailsIn Fault.Ranged (zsocketReadStop s w) := by
  refine (ranged_deref w s).bind fun z hz => FailsIn.bind (.ensure (by decide)) fun _ he => ?_
  refine FailsIn.bind (.ensure (by decide)) fun _ hon => ?_
  rw [World.deref_eq_ok] at hz
  have hn : z.node ≠ .self := by
    intro hn
    have hon : z.readEnable = true := by simpa using hon
    rw [ZSocket.readEnable, (hw.shape_self hz hn).2.1, show (0 : BitVec 32) = 0#32 from rfl,
      hasFlag_zero] at hon
    cases hon
  have hfd := h.inRange hw hz (by simpa using he) hn
  exact (ranged_unwatchRead w hfd).bind fun _ _ => .ok _

theorem zsocketWrite_ranged {buf : List UInt8} {io : WriteIo} (hw : w.WF) (h : w.Fitting)
    (hs : ∀ z, w.mem s = .live z → z.node ≠ .self) :
    FailsIn Fault.Ranged (zsocketWrite s buf io w) := by
  refine (ranged_deref w s).bind fun z hz => FailsIn.bind (.ensure (by decide)) fun _ he => ?_
  rw [World.deref_eq_ok] at hz
  have hfd := h.inRange hw hz (by simpa using he) (hs z hz)
  refine .ite (fun _ => FailsIn.bind (.ensure (by decide)) fun _ _ => ?_) fun _ => ?_
  · cases qbufNew WRITE_BUF_SIZE io.callocSelf io.callocRaw with
    | none => exact .ok _
    | some q =>
        refine (ranged_watchWrite w hfd).bind fun v _ => ?_
        exact FailsIn.bind (.orFail (by decide)) fun r _ => .ok _
  · refine FailsIn.bind (.orFail (by decide)) fun q _ => ?_
    exact FailsIn.bind (.orFail (by decide)) fun r _ => .ok _

/-- **A call on a registered socket** gives the sets no index out of range, if the descriptor that
it obtains fits. -/
theorem Api.run_ranged (hw : w.WF) (h : w.Fitting) (hr : c.registered w = true)
    (ho : c.ObtainsFit w) :
    FailsIn Fault.Ranged (c.run w) := by
  cases c with
  | init s => exact ranged_zsocketInit s w
  | close s cb => exact zsocketClose_ranged hw h fun z hz => by simpa using World.of_check hr hz
  | connect s addr cb io => exact ranged_zsocketConnect.map
  | listen s addr cb io => exact (zsocketListen_ranged ho).map
  | accept s io => exact ranged_zsocketAccept.map
  | readStart s cb =>
    exact zsocketReadStart_ranged hw h fun z hz => by simpa using World.of_check hr hz
  | readStop s => exact zsocketReadStop_ranged hw h
  | write s buf io =>
      exact (zsocketWrite_ranged hw h fun z hz => by simpa using World.of_check hr hz).map
  | sdataAlloc s size calloc =>
      exact (ranged_deref w s).bind fun z _ => .ite (fun _ => .ok _) fun _ => .ok _
  | sdataFree s => exact (ranged_deref w s).bind fun z _ => .ok _
  | setTimeout s tick stall => exact (ranged_deref w s).bind fun z _ => .ok _

/-- **A call** keeps the descriptors fitting, if the one that it obtains fits. -/
theorem Api.run_fitting (hw : w.WF) (h : w.Fitting) (ho : c.ObtainsFit w) (hok : c.run w = .ok w') :
    w'.Fitting := by
  cases c with
  | connect s addr cb io =>
      obtain ⟨⟨r, v⟩, hc, rfl⟩ := map_eq_ok.mp hok
      obtain ⟨z, hz, he,
          ⟨-, -, rfl⟩ | ⟨fd, hsocket, hfresh, ⟨-, -, rfl⟩ | ⟨hconnect, hn, -, rfl⟩⟩⟩ :=
        zsocketConnect_eq_ok.mp hc
      · exact h
      · exact h
      · have hopens := World.opens_eq_true.mpr ⟨z, hz, he, hn⟩
        have hfd := ho fd (mem_obtains_connect.mpr ⟨hopens, hconnect, hsocket, hfresh⟩)
        have hopened : (w.openedWorld s (z.asClient addr cb io fd) fd none).Fitting :=
          h.rewritten (x := .live (z.asClient addr cb io fd)) (fun t => World.put_mem _ s t _)
            fun _ hy => by cases hy; exact hfd
        cases cb <;> exact hopened
  | listen s addr cb io =>
      obtain ⟨⟨r, v⟩, hc, rfl⟩ := map_eq_ok.mp hok
      obtain ⟨z, hz, -, -, ⟨-, -, rfl⟩ | ⟨fd, -, -, ⟨-, -, rfl⟩ | ⟨-, -, hfd, -, rfl⟩⟩⟩ :=
        zsocketListen_eq_ok.mp hc
      · exact h
      · exact h
      · have hopened : (w.openedWorld s (z.asServer addr cb fd) fd none).Fitting :=
          h.rewritten (x := .live (z.asServer addr cb fd)) (fun t => World.put_mem _ s t _)
            fun _ hy => by cases hy; exact hfd.2
        exact World.Fitting.put hopened hfd.2
  | accept s io =>
      obtain ⟨⟨r, v⟩, hc, rfl⟩ := map_eq_ok.mp hok
      obtain ⟨z, hz, he,
          ⟨-, -, rfl⟩ | ⟨conn, fd, raddr, hcalloc, hu, haccept, hserver, hfresh, -, rfl⟩⟩ :=
        zsocketAccept_eq_ok.mp hc
      · exact h
      · have hserves := World.serves_eq_true.mpr ⟨z, hz, he, hserver⟩
        have hfd :=
          ho fd (mem_obtains_accept.mpr ⟨conn, raddr, hcalloc, haccept, hserves, hu, hfresh⟩)
        have hinit := Move.fitting (.init hu) h (fun _ => nofun)
        exact hinit.rewritten (x := .live (ZSocket.initial.asConnection raddr io fd))
          (fun t => World.put_mem _ conn t _) fun _ hy => by cases hy; exact hfd
  | init | close | readStart | readStop | write | sdataAlloc | sdataFree | setTimeout =>
      exact (Api.run_moves _ hw hok).fitting h fun t ht => by simp [Api.may] at ht

end LibZio
