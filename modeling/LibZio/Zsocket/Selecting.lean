import LibZio.Zsocket.Watching

/-! # What `select` is asked

`zsocket_poll` calls `select` with the larger of `nfds_read` and `nfds_write`. The bounds are raised
above a descriptor that starts to be watched and lowered by one when the top descriptor stops to be;
`select_exact` says that this is enough: in every state of every run each watched descriptor is
below its bound and belongs to exactly one listed socket that is not EOF, and an enabled socket is
watched. -/

namespace LibZio

variable {w w' : World} {s : Sid} {z : ZSocket}

/-! ## The bounds -/

/-- The sets of descriptors are below their bounds. -/
structure World.Bounded (w : World) : Prop where
  read : ∀ d ∈ w.fdsRead, d < w.nfdsRead
  write : ∀ d ∈ w.fdsWrite, d < w.nfdsWrite

/-- A bound that is raised above a descriptor bounds it, and what it bounded before. -/
theorem lt_raised {fds : Finset ℤ} {n fd : ℤ} (h : ∀ d ∈ fds, d < n) :
    ∀ d ∈ insert fd fds, d < if n < fd + 1 then fd + 1 else n := by
  intro d hd
  rcases Finset.mem_insert.mp hd with rfl | hd
  · split <;> omega
  · have below := h d hd
    split <;> omega

/-- A bound that is lowered with its top descriptor bounds the others. -/
theorem lt_lowered {fds : Finset ℤ} {n fd : ℤ} (h : ∀ d ∈ fds, d < n) :
    ∀ d ∈ fds.erase fd, d < if n = fd + 1 then n - 1 else n := by
  intro d hd
  obtain ⟨ne, hd⟩ := Finset.mem_erase.mp hd
  have below := h d hd
  split <;> omega

namespace World.Bounded

/-- The world a program starts in is bounded. -/
theorem initial : World.Bounded {} where
  read d hd := absurd hd (Finset.notMem_empty d)
  write d hd := absurd hd (Finset.notMem_empty d)

/-- The bounds depend on the sets and on themselves. -/
theorem congr (h : w.Bounded) (hread : w'.fdsRead = w.fdsRead) (hwrite : w'.fdsWrite = w.fdsWrite)
    (hnr : w'.nfdsRead = w.nfdsRead) (hnw : w'.nfdsWrite = w.nfdsWrite) : w'.Bounded where
  read := by rw [hread, hnr]; exact h.read
  write := by rw [hwrite, hnw]; exact h.write

/-- A close lowers both bounds. -/
theorem closedWorld (h : w.Bounded) (cb : Option Cb) : (w.closedWorld s z cb).Bounded where
  read := lt_lowered h.read
  write := lt_lowered h.write

/-- **Every move keeps the bounds.** -/
theorem move {a : Act} (h : w.Bounded) (m : Move a w w') : w'.Bounded := by
  cases m with
  | init hu =>
      cases hi : w.libInit with
      | true => exact h.congr rfl rfl rfl rfl
      | false => exact ⟨fun d hd => absurd hd (Finset.notMem_empty d),
          fun d hd => absurd hd (Finset.notMem_empty d)⟩
  | watch => exact ⟨lt_raised h.read, h.write⟩
  | unwatch => exact ⟨lt_lowered h.read, h.write⟩
  | watchWrite => exact ⟨h.read, lt_raised h.write⟩
  | close => exact h.closedWorld _
  | abandon => exact (h.congr rfl rfl rfl rfl : (w.put _ _).Bounded).closedWorld _
  | recount => exact (h.congr rfl rfl rfl rfl : (w.put _ _).Bounded).closedWorld _
  | log | mode | «open» | touch | receive | recvFail | unlink | release | «free» =>
      exact h.congr rfl rfl rfl rfl

end World.Bounded

/-! ## Enabled sockets -/

/-- A socket that is enabled is watched. -/
structure World.Serves (w : World) (z : ZSocket) : Prop where
  read : z.readEnable = true → z.fd ∈ w.fdsRead
  write : z.writeEnable = true → z.fd ∈ w.fdsWrite

/-- Every open listed socket that is enabled is watched. -/
def World.ServesAll (w : World) : Prop :=
  ∀ s z, w.mem s = .live z → z.node = .linked → z.eof = false → w.Serves z

/-- A socket that is not enabled claims nothing. -/
theorem World.Serves.off (hread : z.readEnable = false) (hwrite : z.writeEnable = false) :
    w.Serves z where
  read on := absurd (hread.symm.trans on) Bool.false_ne_true
  write on := absurd (hwrite.symm.trans on) Bool.false_ne_true

/-- Clearing all bits of the state word but some others disables a socket. -/
theorem World.Serves.masked {z' : ZSocket} {m : BitVec 32} (hstate : z'.state = z.state &&& m)
    (hread : m &&& ZS_S_READ_ENABLE = 0) (hwrite : m &&& ZS_S_WRITE_ENABLE = 0) : w.Serves z' := by
  apply off
  · rw [ZSocket.readEnable, hstate]
    exact hasFlag_and_of_disjoint _ hread
  · rw [ZSocket.writeEnable, hstate]
    exact hasFlag_and_of_disjoint _ hwrite

/-- **Every move keeps enabled sockets watched.** -/
theorem World.ServesAll.move {a : Act} (h : w.ServesAll) (m : Move a w w') (hw : w.WF) :
    w'.ServesAll := by
  intro t x hx hn he
  by_cases other : a.socket ≠ some t
  · -- the move concerns another socket
    rw [m.mem_of_ne other] at hx
    have before := h t x hx hn he
    have hfd := (hw.shape_linked hx hn).1
    constructor
    · exact fun on => (m.mem_fdsRead hw hx hfd other).mpr (before.read on)
    · exact fun on => (m.mem_fdsWrite hw hx hfd other).mpr (before.write on)
  · have self : a.socket = some t := not_not.mp other
    cases m with
    | log | mode => cases self
    | init hu =>
        obtain rfl := Option.some.inj self
        cases (World.put_mem_self _ _ _).symm.trans hx
        cases hn
    | «open» live node fresh opened accepted =>
        obtain rfl := Option.some.inj self
        cases (World.put_mem_self _ _ _).symm.trans hx
        have hstate := opened.state.trans (hw.shape_self live node).2.1
        exact .off (by rw [ZSocket.readEnable, hstate]; exact hasFlag_zero _)
          (by rw [ZSocket.writeEnable, hstate]; exact hasFlag_zero _)
    | watch live node eof off fd hcb =>
        obtain rfl := Option.some.inj self
        cases (World.put_mem_self _ _ _).symm.trans hx
        refine ⟨fun _ => Finset.mem_insert_self _ _, fun on => ?_⟩
        refine (h _ _ live node eof).write ?_
        rw [← on]
        exact (hasFlag_or_of_disjoint _ (by decide)).symm
    | unwatch live node eof on fd =>
        obtain rfl := Option.some.inj self
        cases (World.put_mem_self _ _ _).symm.trans hx
        refine ⟨fun on => ?_, fun on => ?_⟩
        · exact absurd ((hasFlag_andNot_self _ _).symm.trans on) Bool.false_ne_true
        · refine (h _ _ live node eof).write ?_
          rw [← on]
          exact (hasFlag_andNot_of_disjoint _ (by decide)).symm
    | watchWrite live node eof off fd =>
        obtain rfl := Option.some.inj self
        cases (World.put_mem_self _ _ _).symm.trans hx
        refine ⟨fun on => ?_, fun _ => Finset.mem_insert_self _ _⟩
        refine (h _ _ live node eof).read ?_
        rw [← on]
        exact (hasFlag_or_of_disjoint _ (by decide)).symm
    | @touch _ _ y _ live same | @receive _ _ y _ live same =>
        obtain rfl := Option.some.inj self
        cases (World.put_mem_self _ _ _).symm.trans hx
        have he' : y.eof = false := by rw [← he, ZSocket.eof, ZSocket.eof, same.state]
        have before := h _ y live (same.node.symm.trans hn) he'
        constructor
        · intro on
          rw [same.fd]
          exact before.read (by rw [← on, ZSocket.readEnable, ZSocket.readEnable, same.state])
        · intro on
          rw [same.fd]
          exact before.write (by rw [← on, ZSocket.writeEnable, ZSocket.writeEnable, same.state])
    | recvFail live node eof same =>
        obtain rfl := Option.some.inj self
        cases (World.put_mem_self _ _ _).symm.trans hx
        exact .masked same.state (by decide) (by decide)
    | close | abandon | recount =>
        obtain rfl := Option.some.inj self
        cases (World.put_mem_self _ _ _).symm.trans hx
        exact absurd (he.symm.trans (ZSocket.closed_eof _ _)) Bool.false_ne_true
    | unlink =>
        obtain rfl := Option.some.inj self
        cases (World.put_mem_self _ _ _).symm.trans hx
        cases hn
    | release live node =>
        obtain rfl := Option.some.inj self
        cases (World.put_mem_self _ _ _).symm.trans hx
        cases node.symm.trans hn
    | «free» =>
        obtain rfl := Option.some.inj self
        cases (Function.update_self _ _ _).symm.trans hx

/-! ## Runs -/

/-- The first argument of `select`. -/
def World.selectNfds (w : World) : ℤ :=
  if w.nfdsRead > w.nfdsWrite then w.nfdsRead else w.nfdsWrite

/-- `d` is the descriptor of `s`, which is listed and not EOF. -/
def World.OpenAs (w : World) (d : ℤ) (s : Sid) : Prop :=
  s ∈ w.socks ∧ ∃ z, w.mem s = .live z ∧ z.eof = false ∧ z.fd = d

/-- `select` is asked about every enabled socket and about nothing else than open sockets. -/
structure World.SelectExact (w : World) : Prop where
  bounded : w.Bounded
  read : ∀ d ∈ w.fdsRead, ∃! s, w.OpenAs d s
  write : ∀ d ∈ w.fdsWrite, ∃! s, w.OpenAs d s
  /-- Nothing that is watched is overlooked. -/
  below : ∀ d ∈ w.fdsRead ∪ w.fdsWrite, d < w.selectNfds
  enabled : ∀ s ∈ w.socks, ∀ z, w.mem s = .live z → z.eof = false → w.Serves z

namespace World

/-- What a watched descriptor is the descriptor of. -/
theorem WF.openAs_unique (hw : w.WF) {d : ℤ}
    (h : ∃ s z, w.mem s = .live z ∧ z.node = .linked ∧ z.eof = false ∧ z.fd = d) :
    ∃! s, w.OpenAs d s := by
  obtain ⟨s, z, hz, hn, he, rfl⟩ := h
  refine ⟨s, ⟨hw.mem_socks hz hn, z, hz, he, rfl⟩, ?_⟩
  rintro t ⟨-, y, hy, -, hfd⟩
  exact (hw.inj s t z y hz hy (hw.shape_linked hz hn).1 hfd.symm).symm

/-- The larger of the two bounds bounds both sets. -/
theorem Bounded.below (h : w.Bounded) : ∀ d ∈ w.fdsRead ∪ w.fdsWrite, d < w.selectNfds := by
  intro d hd
  unfold selectNfds
  rcases Finset.mem_union.mp hd with hd | hd
  · have := h.read d hd
    split <;> omega
  · have := h.write d hd
    split <;> omega

end World

/-- **`select` is asked what it should be** in every world the program can look at, in every run. -/
theorem select_exact (h : Sys.Seen Machine.anyStep w) : w.SelectExact := by
  have inv : w.WF ∧ w.Bounded ∧ w.ServesAll := by
    refine Sys.Seen.invariant (I := fun w => w.WF ∧ w.Bounded ∧ w.ServesAll)
      ⟨.initial, .initial, fun _ _ hz => (nomatch hz)⟩ ?_ h
    rintro c i a v v' - - - m hv ⟨-, bounded, serves⟩
    exact ⟨m.wf hv, bounded.move m, serves.move m hv⟩
  obtain ⟨hw, bounded, serves⟩ := inv
  constructor
  case bounded => exact bounded
  case read => exact fun d hd => hw.openAs_unique (hw.read d hd)
  case write => exact fun d hd => hw.openAs_unique (hw.write d hd)
  case below => exact bounded.below
  case enabled =>
    intro s hs z hz he
    exact serves s z hz (hw.linked_of_mem hs hz) he

/-- A connection above its server in the read set, after it timed out and was closed twice. -/
theorem select_exact_timeout : ∃ w : World, w.fdsRead = {3} ∧ w.nfdsRead = 4 ∧ w.SelectExact := by
  obtain ⟨c, r, h⟩ := Machine.Reach.of_leadsTo (M := zio)
    (P := fun c => decide (c.world.fdsRead = {3}) && decide (c.world.nfdsRead = 4)) .init
    (show zio.leadsTo Machine.anyStep _ (readOne 8000 ++ [.loop 1000 (.ready {3} ∅),
      .visit (.calling []), .visit (.calling [.close 1 none]), .closeVisit ⟨301, []⟩]) zio.init =
        true by decide +kernel)
  obtain ⟨hread, hbound⟩ := (Bool.and_eq_true _ _).mp h
  exact ⟨c.world, of_decide_eq_true hread, of_decide_eq_true hbound, select_exact (.between r)⟩

end LibZio
