import LibZio.Zsocket.Frames

/-! # The library makes moves

Every function of the library, when it returns, has made a sequence of moves, of kinds that its
arguments and its answers determine (`Api.may`, `Input.may`). This is the only place where the
functions are unfolded for the invariants of the later files. -/

namespace LibZio

/-! ## API calls -/

/-- The kinds of moves an API call may make. -/
def Api.may (looping : Bool) : Api → Act → Prop
  | .init s, a => a = .init s
  | .close s _, a => a = .close s ∨ looping = false ∧ (a = .unlink s ∨ a = .release s)
  | .connect s _ _ _, a => a = .open s ∨ a = .log
  | .listen s _ _ _, a => a = .open s ∨ a = .watch s ∨ a = .log
  | .accept _ io, a => ∃ conn, io.calloc = some conn ∧ (a = .init conn ∨ a = .open conn)
  | .readStart s _, a => a = .watch s
  | .readStop s, a => a = .unwatch s
  | .write s _ _, a => a = .watchWrite s ∨ a = .touch s
  | .sdataAlloc s _ _, a => a = .touch s
  | .sdataFree s, a => a = .touch s
  | .setTimeout s _ _, a => a = .touch s

section Calls

variable {w w' : World} {s : Sid}

/-- The world after `zsocket_init`. -/
abbrev World.initWorld (w : World) (s : Sid) : World :=
  World.put (if w.libInit then w
    else { w with nfdsRead := 0, fdsRead := ∅, nfdsWrite := 0, fdsWrite := ∅, libInit := true })
    s .initial

/-- `zsocket_init` returns exactly on memory that is under a new identifier. -/
theorem zsocketInit_eq_ok : zsocketInit s w = .ok w' ↔ w.mem s = .unused ∧ w' = w.initWorld s := by
  unfold zsocketInit
  cases hm : w.mem s with
  | unused => exact ⟨fun h => ⟨rfl, (Except.ok.inj h).symm⟩, fun h => congrArg Except.ok h.2.symm⟩
  | live z => exact ⟨fun h => (nomatch h), fun h => (nomatch h.1)⟩
  | freed => exact ⟨fun h => (nomatch h), fun h => (nomatch h.1)⟩

theorem zsocketInit_move (h : zsocketInit s w = .ok w') : Move (.init s) w w' := by
  obtain ⟨hu, rfl⟩ := zsocketInit_eq_ok.mp h
  exact .init hu

/-- While the library is looping, a close is one move. -/
theorem zsocketClose_move {cb : Option Cb} (hw : w.WF) (hl : w.inLooping = true)
    (h : zsocketClose s cb w = .ok w') : Move (.close s) w w' := by
  obtain ⟨z, hz, he, hfd, rfl⟩ := (zsocketCloseWith_looping hl).mp h
  exact .close hz (hw.linked_of_open hz he hfd.1) he hfd

theorem zsocketClose_moves {cb : Option Cb} (hw : w.WF) (h : zsocketClose s cb w = .ok w') :
    Moves ((Api.close s cb).may w.inLooping) w w' := by
  cases hl : w.inLooping with
  | true => exact .one (.inl rfl) (zsocketClose_move hw hl h)
  | false =>
      obtain ⟨z, hz, hn, he, hfd, -, rfl⟩ := (zsocketClose_immediate hw hl).mp h
      have hclose : Move (.close s) w (w.closedWorld s z cb) := .close hz hn he hfd
      have hunlink : Move (.unlink s) _ ((w.closedWorld s z cb).unlinkedWorld s (z.closed cb)) :=
        .unlink (World.put_mem_self _ _ _) hn (z.closed_eof cb)
      have hrelease := Move.release (w := (w.closedWorld s z cb).unlinkedWorld s (z.closed cb))
        (z := (z.closed cb).unlinked) (World.put_mem_self _ _ _) rfl
      exact (Moves.one (.inl rfl) hclose).append
        ((Moves.one (.inr ⟨rfl, .inl rfl⟩) hunlink).append (.one (.inr ⟨rfl, .inr rfl⟩) hrelease))

/-- Writing a socket and listing it. -/
theorem listAdd_put {z : ZSocket} (hn : z.node ≠ .linked) :
    (w.put s z).listAdd s =
      .ok { w.put s { z with node := .linked } with socks := s :: w.socks } := by
  rw [World.listAdd, World.deref_eq_ok.mpr (World.put_mem_self _ _ _), ok_bind]
  cases h : z.node with
  | linked => exact absurd h hn
  | self => simp [World.put]
  | poisoned => simp [World.put]

/-- A socket that is on the list cannot be listed. -/
theorem not_linked_of_listAdd {z : ZSocket} (h : (w.put s z).listAdd s = .ok w') :
    z.node ≠ .linked := by
  intro hn
  rw [World.listAdd, World.deref_eq_ok.mpr (World.put_mem_self _ _ _), ok_bind, hn] at h
  cases h

/-- A socket that is not EOF and can be listed is untouched. -/
theorem World.WF.self_of_open {z : ZSocket} (hw : w.WF) (hz : w.mem s = .live z)
    (he : z.eof = false) (hn : z.node ≠ .linked) : z.node = .self := by
  cases h : z.node with
  | self => rfl
  | linked => exact absurd h hn
  | poisoned => rw [hw.shape_poisoned hz h] at he; cases he

/-- A socket that is opened without a server is accepted from none. -/
theorem accepted_none (z : ZSocket) : ∀ server, none = some server → w.Accepting server z :=
  fun _ h => nomatch h

/-- A descriptor that is opened and closed again leaves a trace only. -/
theorem openFd_closeFd {fd : ℕ} {v : World} (h : w.openFd fd = .ok v) :
    v.closeFd fd = w.log (.closeFd fd) := by
  unfold World.openFd at h
  by_cases hfd : (fd : ℤ) ∈ w.openFds
  · rw [if_pos hfd] at h; cases h
  · rw [if_neg hfd] at h
    cases h
    simp [World.closeFd, World.log, Finset.erase_insert hfd]

theorem openFd_eq_ok {fd : ℕ} {v : World} :
    w.openFd fd = .ok v ↔
      (fd : ℤ) ∉ w.openFds ∧ v = { w with openFds := insert (fd : ℤ) w.openFds } := by
  unfold World.openFd
  by_cases hfd : (fd : ℤ) ∈ w.openFds <;> simp [hfd, eq_comm]

/-- The fields of a connected client. -/
def ZSocket.asClient (z : ZSocket) (addr : SockaddrIn) (cb : Option Cb) (io : ConnectIo) (fd : ℕ) :
    ZSocket :=
  { z with
    fd := fd, raddr := addr, laddr := io.laddr, type := .client, tick := io.now, connectedCb := cb,
    node := .linked }

/-- The fields of a listening server that is not yet watched. -/
def ZSocket.asServer (z : ZSocket) (addr : SockaddrIn) (cb : Option Cb) (fd : ℕ) : ZSocket :=
  { z with fd := fd, laddr := addr, type := .server, connectionCb := cb, node := .linked }

/-- The fields of an accepted connection. -/
def ZSocket.asConnection (z : ZSocket) (raddr : SockaddrIn) (io : AcceptIo) (fd : ℕ) : ZSocket :=
  { z with
    fd := fd, raddr := raddr, laddr := io.laddr, type := .connection, tick := io.now,
    node := .linked }

/-- The world after the call of `connected_cb`, if there is one. -/
def World.notified (w : World) (s : Sid) : Option Cb → World
  | some cb => w.log (.connectedCb s cb)
  | none => w

/-- **The ways `zsocket_connect` returns**: without a descriptor, without a connection, or with the
client opened. -/
theorem zsocketConnect_eq_ok {addr : SockaddrIn} {cb : Option Cb} {io : ConnectIo} {r : ℤ} :
    zsocketConnect s addr cb io w = .ok (r, w') ↔ ∃ z, w.mem s = .live z ∧ z.eof = false ∧
      ((io.socket = none ∧ r = -1 ∧ w' = w) ∨
        ∃ fd, io.socket = some fd ∧ (fd : ℤ) ∉ w.openFds ∧
          ((io.connect = false ∧ r = -1 ∧ w' = w.log (.closeFd fd)) ∨
            (io.connect = true ∧ z.node ≠ .linked ∧ r = 0 ∧
              w' = (w.openedWorld s (z.asClient addr cb io fd) fd none).notified s cb))) := by
  constructor
  · intro h
    obtain ⟨z, hz, h⟩ := bind_eq_ok.mp h
    obtain ⟨_, he, h⟩ := bind_eq_ok.mp h
    refine ⟨z, World.deref_eq_ok.mp hz, by simpa using he, ?_⟩
    cases hs : io.socket with
    | none => rw [hs] at h; cases h; exact .inl ⟨rfl, rfl, rfl⟩
    | some fd =>
        rw [hs] at h
        obtain ⟨v, hv, h⟩ := bind_eq_ok.mp h
        refine .inr ⟨fd, rfl, (openFd_eq_ok.mp hv).1, ?_⟩
        cases hc : io.connect with
        | false =>
            rw [hc] at h
            cases h
            exact .inl ⟨rfl, rfl, openFd_closeFd hv⟩
        | true =>
            rw [hc] at h
            obtain ⟨-, rfl⟩ := openFd_eq_ok.mp hv
            obtain ⟨v₁, hadd, h⟩ := bind_eq_ok.mp h
            have hn := not_linked_of_listAdd hadd
            rw [listAdd_put hn] at hadd
            cases hadd
            cases cb with
            | none => cases h; exact .inr ⟨rfl, hn, rfl, rfl⟩
            | some cb => cases h; exact .inr ⟨rfl, hn, rfl, rfl⟩
  · rintro ⟨z, hz, he, hcases⟩
    rw [zsocketConnect, World.deref_eq_ok.mpr hz, ok_bind, he, Bool.not_false, ensure_true, ok_bind]
    obtain ⟨hs, rfl, rfl⟩ | ⟨fd, hs, hfd, ⟨hc, rfl, rfl⟩ | ⟨hc, hn, rfl, rfl⟩⟩ := hcases
    · rw [hs]; rfl
    · have hv := openFd_eq_ok.mpr ⟨hfd, rfl⟩
      rw [hs]
      dsimp only
      rw [hv, ok_bind, hc, openFd_closeFd hv]
      rfl
    · rw [hs]
      dsimp only
      rw [openFd_eq_ok.mpr ⟨hfd, rfl⟩, ok_bind, hc, if_neg (by decide), listAdd_put (by exact hn),
        ok_bind]
      cases cb <;> rfl

theorem zsocketConnect_moves {addr : SockaddrIn} {cb : Option Cb} {io : ConnectIo} {r : ℤ}
    (hw : w.WF) (h : zsocketConnect s addr cb io w = .ok (r, w')) :
    Moves (fun a => a = .open s ∨ a = .log) w w' := by
  obtain ⟨z, hz, he, ⟨-, -, rfl⟩ | ⟨fd, -, hfd, ⟨-, -, rfl⟩ | ⟨-, hn, -, rfl⟩⟩⟩ :=
    zsocketConnect_eq_ok.mp h
  · exact .none
  · exact .one (.inr rfl) (.log _ trivial)
  · have opened : z.OpenedAs (z.asClient addr cb io fd) fd :=
      ⟨rfl, rfl, rfl, by simp [ZSocket.asClient], rfl, rfl, by simp [ZSocket.asClient]⟩
    have hopen := Move.open hz (hw.self_of_open hz he hn) hfd opened (accepted_none _)
    cases cb with
    | none => exact .one (.inl rfl) hopen
    | some cb => exact (Moves.one (.inl rfl) hopen).append (.one (.inr rfl) (.log _ trivial))

/-- **The ways `zsocket_listen` returns**: without a descriptor, without the address, or with the
server opened and watched. -/
theorem zsocketListen_eq_ok {addr : SockaddrIn} {cb : Option Cb} {io : ListenIo} {r : ℤ} :
    zsocketListen s addr cb io w = .ok (r, w') ↔
      ∃ z, w.mem s = .live z ∧ z.eof = false ∧ cb.isSome = true ∧
      ((io.socket = none ∧ r = -1 ∧ w' = w) ∨
        ∃ fd, io.socket = some fd ∧ (fd : ℤ) ∉ w.openFds ∧
          ((io.bind = false ∧ r = -1 ∧ w' = w.log (.closeFd fd)) ∨
            (io.bind = true ∧ z.node ≠ .linked ∧ World.InRange fd ∧ r = 0 ∧
              w' = ((w.openedWorld s (z.asServer addr cb fd) fd none).watchedRead fd).put s
                { z.asServer addr cb fd with state := z.state ||| ZS_S_READ_ENABLE }))) := by
  constructor
  · intro h
    obtain ⟨z, hz, h⟩ := bind_eq_ok.mp h
    obtain ⟨_, he, h⟩ := bind_eq_ok.mp h
    obtain ⟨_, hcb, h⟩ := bind_eq_ok.mp h
    refine ⟨z, World.deref_eq_ok.mp hz, by simpa using he, by simpa using hcb, ?_⟩
    cases hs : io.socket with
    | none => rw [hs] at h; cases h; exact .inl ⟨rfl, rfl, rfl⟩
    | some fd =>
        rw [hs] at h
        obtain ⟨v, hv, h⟩ := bind_eq_ok.mp h
        refine .inr ⟨fd, rfl, (openFd_eq_ok.mp hv).1, ?_⟩
        cases hc : io.bind with
        | false =>
            rw [hc] at h
            cases h
            exact .inl ⟨rfl, rfl, openFd_closeFd hv⟩
        | true =>
            rw [hc] at h
            obtain ⟨-, rfl⟩ := openFd_eq_ok.mp hv
            obtain ⟨v₁, hadd, h⟩ := bind_eq_ok.mp h
            have hn := not_linked_of_listAdd hadd
            rw [listAdd_put hn] at hadd
            cases hadd
            obtain ⟨v₂, hwatch, h⟩ := bind_eq_ok.mp h
            obtain ⟨hrange, rfl⟩ := World.watchRead_eq_ok.mp hwatch
            obtain ⟨y, hy, h⟩ := bind_eq_ok.mp h
            obtain rfl := Slot.live.inj
              ((World.put_mem_self _ _ _).symm.trans (World.deref_eq_ok.mp hy))
            cases h
            exact .inr ⟨rfl, hn, hrange, rfl, rfl⟩
  · rintro ⟨z, hz, he, hcb, hcases⟩
    rw [zsocketListen, World.deref_eq_ok.mpr hz, ok_bind, he, Bool.not_false, ensure_true,
      ok_bind, hcb, ensure_true, ok_bind]
    obtain ⟨hs, rfl, rfl⟩ | ⟨fd, hs, hfd, ⟨hc, rfl, rfl⟩ | ⟨hc, hn, hrange, rfl, rfl⟩⟩ := hcases
    · rw [hs]; rfl
    · have hv := openFd_eq_ok.mpr ⟨hfd, rfl⟩
      rw [hs]
      dsimp only
      rw [hv, ok_bind, hc, openFd_closeFd hv]
      rfl
    · rw [hs]
      dsimp only
      rw [openFd_eq_ok.mpr ⟨hfd, rfl⟩, ok_bind, hc, if_neg (by decide), listAdd_put (by exact hn),
        ok_bind, World.watchRead_eq_ok.mpr ⟨hrange, rfl⟩, ok_bind]
      exact bind_eq_ok.mpr ⟨_, World.deref_eq_ok.mpr (World.put_mem_self _ _ _), rfl⟩

theorem zsocketListen_moves {addr : SockaddrIn} {cb : Option Cb} {io : ListenIo} {r : ℤ}
    (hw : w.WF) (h : zsocketListen s addr cb io w = .ok (r, w')) :
    Moves (fun a => a = .open s ∨ a = .watch s ∨ a = .log) w w' := by
  obtain ⟨z, hz, he, hcb, ⟨-, -, rfl⟩ | ⟨fd, -, hfd, ⟨-, -, rfl⟩ | ⟨-, hn, hrange, -, rfl⟩⟩⟩ :=
    zsocketListen_eq_ok.mp h
  · exact .none
  · exact .one (.inr (.inr rfl)) (.log _ trivial)
  · have hself := hw.self_of_open hz he hn
    have opened : z.OpenedAs (z.asServer addr cb fd) fd :=
      ⟨rfl, rfl, rfl, by simp [ZSocket.asServer], rfl, rfl, fun _ => hcb⟩
    have hopen := Move.open hz hself hfd opened (accepted_none _)
    have hoff : z.readEnable = false := by
      rw [ZSocket.readEnable, (hw.shape_self hz hself).2.1, show (0 : BitVec 32) = 0#32 from rfl,
        hasFlag_zero]
    have hwatched := @Move.watch (w.openedWorld s (z.asServer addr cb fd) fd none) s _ z.readCb
      (World.put_mem_self _ _ _) rfl he hoff hrange (by simp [ZSocket.asServer])
    exact (Moves.one (.inl rfl) hopen).append (.one (.inr (.inl rfl)) hwatched)

/-- Initialising opens no descriptor. -/
theorem initWorld_openFds (s : Sid) : (w.initWorld s).openFds = w.openFds := by
  cases hi : w.libInit <;> simp only [World.initWorld, hi] <;> rfl

/-- **The ways `zsocket_accept` returns**: without memory, or with the connection opened. When
`accept` fails the teardown of the new object, which is not EOF, aborts. -/
theorem zsocketAccept_eq_ok {io : AcceptIo} {r : Option Sid} :
    zsocketAccept s io w = .ok (r, w') ↔ ∃ z, w.mem s = .live z ∧ z.eof = false ∧
      ((io.calloc = none ∧ r = none ∧ w' = w) ∨
        ∃ conn fd raddr, io.calloc = some conn ∧ w.mem conn = .unused ∧
          io.accept = some (fd, raddr) ∧ z.type = .server ∧ (fd : ℤ) ∉ w.openFds ∧ r = some conn ∧
          w' = (w.initWorld conn).openedWorld conn (ZSocket.initial.asConnection raddr io fd) fd
            (some s)) := by
  constructor
  · intro h
    obtain ⟨z, hz, h⟩ := bind_eq_ok.mp h
    obtain ⟨_, he, h⟩ := bind_eq_ok.mp h
    refine ⟨z, World.deref_eq_ok.mp hz, by simpa using he, ?_⟩
    cases hcalloc : io.calloc with
    | none => rw [hcalloc] at h; cases h; exact .inl ⟨rfl, rfl, rfl⟩
    | some conn =>
        rw [hcalloc] at h
        obtain ⟨v, hv, h⟩ := bind_eq_ok.mp h
        obtain ⟨hu, rfl⟩ := zsocketInit_eq_ok.mp hv
        cases haccept : io.accept with
        | none =>
            rw [haccept] at h
            obtain ⟨v₁, hc, -⟩ := bind_eq_ok.mp h
            obtain ⟨y, hy, hc⟩ := bind_eq_ok.mp hc
            obtain rfl :=
              Slot.live.inj ((World.put_mem_self _ _ _).symm.trans (World.deref_eq_ok.mp hy))
            cases hc
        | some fr =>
            obtain ⟨fd, raddr⟩ := fr
            rw [haccept] at h
            obtain ⟨_, hserver, h⟩ := bind_eq_ok.mp h
            obtain ⟨v₁, hopen, h⟩ := bind_eq_ok.mp h
            obtain ⟨c, hc, h⟩ := bind_eq_ok.mp h
            obtain ⟨v₂, hadd, h⟩ := bind_eq_ok.mp h
            obtain ⟨hfd, rfl⟩ := openFd_eq_ok.mp hopen
            obtain rfl :=
              Slot.live.inj ((World.put_mem_self _ _ _).symm.trans (World.deref_eq_ok.mp hc))
            rw [listAdd_put (by simp [ZSocket.initial])] at hadd
            cases hadd
            cases h
            exact .inr ⟨conn, fd, raddr, rfl, hu, rfl, by simpa using hserver, by
              rwa [initWorld_openFds] at hfd, rfl, rfl⟩
  · rintro ⟨z, hz, he, hcases⟩
    rw [zsocketAccept, World.deref_eq_ok.mpr hz, ok_bind, he, Bool.not_false, ensure_true, ok_bind]
    obtain ⟨hcalloc, rfl, rfl⟩ | ⟨conn, fd, raddr, hcalloc, hu, haccept, hserver, hfd, rfl, rfl⟩ :=
      hcases
    · rw [hcalloc]; rfl
    · rw [hcalloc]
      dsimp only
      rw [zsocketInit_eq_ok.mpr ⟨hu, rfl⟩, ok_bind, haccept]
      dsimp only
      rw [decide_eq_true hserver, ensure_true, ok_bind,
        openFd_eq_ok.mpr ⟨by rw [initWorld_openFds]; exact hfd, rfl⟩, ok_bind]
      refine bind_eq_ok.mpr ⟨_, World.deref_eq_ok.mpr (World.put_mem_self _ _ _), ?_⟩
      rw [listAdd_put (by simp [ZSocket.initial]), ok_bind]
      rfl

theorem zsocketAccept_moves {io : AcceptIo} {r : Option Sid} (hw : w.WF)
    (h : zsocketAccept s io w = .ok (r, w')) : Moves ((Api.accept s io).may w.inLooping) w w' := by
  obtain ⟨z, hz, he, ⟨-, -, rfl⟩ | ⟨conn, fd, raddr, hcalloc, hu, -, hserver, hfd, -, rfl⟩⟩ :=
    zsocketAccept_eq_ok.mp h
  · exact .none
  · have hinit : Move (.init conn) w (w.initWorld conn) := .init hu
    have hne : conn ≠ s := by
      rintro rfl
      rw [hz] at hu; cases hu
    have hlinked : z.node = .linked := by
      cases hn : z.node with
      | self =>
          have := (hw.shape_self hz hn).2.2.2.2
          rw [hserver] at this; cases this
      | linked => rfl
      | poisoned => rw [hw.shape_poisoned hz hn] at he; cases he
    have opened : ZSocket.initial.OpenedAs (ZSocket.initial.asConnection raddr io fd) fd :=
      ⟨rfl, rfl, rfl, by simp [ZSocket.asConnection], rfl, rfl, by simp [ZSocket.asConnection]⟩
    have haccepting : ∀ server, some s = some server →
        (w.initWorld conn).Accepting server (ZSocket.initial.asConnection raddr io fd) := by
      rintro _ ⟨⟩
      refine ⟨z, ?_, hlinked, he, hserver, rfl⟩
      rw [hinit.mem_of_ne (by simpa [Act.socket] using hne), hz]
    have hfresh : (fd : ℤ) ∉ (w.initWorld conn).openFds := by
      rw [initWorld_openFds]
      exact hfd
    have hmove := Move.open (World.put_mem_self _ _ _) rfl hfresh opened haccepting
    exact (Moves.one ⟨conn, hcalloc, .inl rfl⟩ hinit).append (.one ⟨conn, hcalloc, .inr rfl⟩ hmove)

/-- `zsocket_read_start` is one move. -/
theorem zsocketReadStart_move {cb : Option Cb} (hw : w.WF) (h : zsocketReadStart s cb w = .ok w') :
    Move (.watch s) w w' := by
  obtain ⟨z, hz, h⟩ := bind_eq_ok.mp h
  obtain ⟨_, he, h⟩ := bind_eq_ok.mp h
  obtain ⟨_, hoff, h⟩ := bind_eq_ok.mp h
  obtain ⟨_, hcb, h⟩ := bind_eq_ok.mp h
  obtain ⟨v, hv, h⟩ := bind_eq_ok.mp h
  obtain ⟨hfd, rfl⟩ := World.watchRead_eq_ok.mp hv
  rw [World.deref_eq_ok] at hz
  replace he : z.eof = false := by simpa using he
  cases h
  exact .watch hz (hw.linked_of_open hz he hfd.1) he (by simpa using hoff) hfd
    (fun _ => by simpa using hcb)

/-- `zsocket_read_stop` is one move. -/
theorem zsocketReadStop_move (hw : w.WF) (h : zsocketReadStop s w = .ok w') :
    Move (.unwatch s) w w' := by
  obtain ⟨z, hz, h⟩ := bind_eq_ok.mp h
  obtain ⟨_, he, h⟩ := bind_eq_ok.mp h
  obtain ⟨_, hon, h⟩ := bind_eq_ok.mp h
  obtain ⟨v, hv, h⟩ := bind_eq_ok.mp h
  obtain ⟨hfd, rfl⟩ := World.unwatchRead_eq_ok.mp hv
  rw [World.deref_eq_ok] at hz
  replace he : z.eof = false := by simpa using he
  cases h
  exact .unwatch hz (hw.linked_of_open hz he hfd.1) he (by simpa using hon) hfd

/-- **The ways `zsocket_write` returns**: without memory for the buffer, with a new buffer, or with
the buffer there was. -/
theorem zsocketWrite_eq_ok {buf : List UInt8} {io : WriteIo} {r : ℕ} :
    zsocketWrite s buf io w = .ok (r, w') ↔ ∃ z, w.mem s = .live z ∧ z.eof = false ∧
      ((z.writeEnable = false ∧ z.wbuf = none ∧
          qbufNew WRITE_BUF_SIZE io.callocSelf io.callocRaw = none ∧ r = SIZE_MAX ∧ w' = w) ∨
        (∃ q q', z.writeEnable = false ∧ z.wbuf = none ∧
          qbufNew WRITE_BUF_SIZE io.callocSelf io.callocRaw = some q ∧ World.InRange z.fd ∧
          qbufWrite q buf io.realloc = some (r, q') ∧
          w' = (w.watchedWrite z.fd).put s
            { z with state := z.state ||| ZS_S_WRITE_ENABLE, wbuf := some q' }) ∨
        (∃ q q', z.writeEnable = true ∧ z.wbuf = some q ∧
          qbufWrite q buf io.realloc = some (r, q') ∧
            w' = w.put s { z with wbuf := some q' })) := by
  constructor
  · intro h
    obtain ⟨z, hz, h⟩ := bind_eq_ok.mp h
    obtain ⟨_, he, h⟩ := bind_eq_ok.mp h
    refine ⟨z, World.deref_eq_ok.mp hz, by simpa using he, ?_⟩
    cases hon : z.writeEnable with
    | false =>
        rw [hon] at h
        obtain ⟨_, hnull, h⟩ := bind_eq_ok.mp h
        replace hnull : z.wbuf = none := by simpa using hnull
        cases hnew : qbufNew WRITE_BUF_SIZE io.callocSelf io.callocRaw with
        | none => rw [hnew] at h; cases h; exact .inl ⟨rfl, hnull, rfl, rfl, rfl⟩
        | some q =>
            rw [hnew] at h
            obtain ⟨v, hv, h⟩ := bind_eq_ok.mp h
            obtain ⟨⟨n, q'⟩, hwrite, h⟩ := bind_eq_ok.mp h
            obtain ⟨hfd, rfl⟩ := World.watchWrite_eq_ok.mp hv
            cases h
            -- the first write on the socket
            exact .inr (.inl ⟨q, q', rfl, hnull, rfl, hfd, orFail_eq_ok.mp hwrite, rfl⟩)
    | true =>
        rw [hon] at h
        obtain ⟨q, hq, h⟩ := bind_eq_ok.mp h
        obtain ⟨⟨n, q'⟩, hwrite, h⟩ := bind_eq_ok.mp h
        cases h
        exact .inr (.inr ⟨q, q', rfl, orFail_eq_ok.mp hq, orFail_eq_ok.mp hwrite, rfl⟩)
  · rintro ⟨z, hz, he, hcases⟩
    rw [zsocketWrite, World.deref_eq_ok.mpr hz, ok_bind, he, Bool.not_false, ensure_true, ok_bind]
    obtain ⟨hon, hnull, hnew, rfl, rfl⟩ | ⟨q, q', hon, hnull, hnew, hfd, hwrite, rfl⟩ |
      ⟨q, q', hon, hq, hwrite, rfl⟩ := hcases
    · rw [hon, if_pos (by rfl), hnull, Option.isNone_none, ensure_true, ok_bind, hnew]
      rfl
    · rw [hon, if_pos (by rfl), hnull, Option.isNone_none, ensure_true, ok_bind, hnew]
      dsimp only
      rw [World.watchWrite_eq_ok.mpr ⟨hfd, rfl⟩, ok_bind, hwrite]
      rfl
    · rw [hon, if_neg (by decide), hq, orFail_some, ok_bind, hwrite]
      rfl

/-- `zsocket_write` allocates the buffer and watches the descriptor, or appends to the buffer. -/
theorem zsocketWrite_moves {buf : List UInt8} {io : WriteIo} {r : ℕ} (hw : w.WF)
    (h : zsocketWrite s buf io w = .ok (r, w')) :
    Moves (fun a => a = .watchWrite s ∨ a = .touch s) w w' := by
  obtain ⟨z, hz, he,
      ⟨-, -, -, -, rfl⟩ | ⟨q, q', hon, -, -, hfd, -, rfl⟩ | ⟨q, q', -, hq, -, rfl⟩⟩ :=
    zsocketWrite_eq_ok.mp h
  · exact .none
  · exact .one (.inl rfl) (.watchWrite hz (hw.linked_of_open hz he hfd.1) he hon hfd)
  · exact .one (.inr rfl) (.touch hz ⟨rfl, rfl, rfl, rfl, rfl, rfl, rfl, rfl, by rw [hq]; rfl⟩ rfl)

/-- **An API call makes the moves it may make.** -/
theorem Api.run_moves (c : Api) (hw : w.WF) (h : c.run w = .ok w') :
    Moves (c.may w.inLooping) w w' := by
  cases c with
  | init s => exact .one rfl (zsocketInit_move h)
  | close s cb => exact zsocketClose_moves hw h
  | connect s addr cb io =>
      obtain ⟨⟨r, v⟩, hc, rfl⟩ := map_eq_ok.mp h
      exact zsocketConnect_moves hw hc
  | listen s addr cb io =>
      obtain ⟨⟨r, v⟩, hc, rfl⟩ := map_eq_ok.mp h
      exact zsocketListen_moves hw hc
  | accept s io =>
      obtain ⟨⟨r, v⟩, hc, rfl⟩ := map_eq_ok.mp h
      exact zsocketAccept_moves hw hc
  | readStart s cb => exact .one rfl (zsocketReadStart_move hw h)
  | readStop s => exact .one rfl (zsocketReadStop_move hw h)
  | write s buf io =>
      obtain ⟨⟨r, v⟩, hc, rfl⟩ := map_eq_ok.mp h
      exact zsocketWrite_moves hw hc
  | sdataAlloc s size calloc =>
      obtain ⟨z, hz, h⟩ := bind_eq_ok.mp h
      by_cases hs : z.sdata.isSome
      · rw [if_pos hs] at h; cases h; exact .none
      · rw [if_neg hs] at h
        cases h
        exact .one rfl
          (.touch (World.deref_eq_ok.mp hz) ⟨rfl, rfl, rfl, rfl, rfl, rfl, rfl, rfl, rfl⟩ rfl)
  | sdataFree s =>
      obtain ⟨z, hz, h⟩ := bind_eq_ok.mp h
      cases h
      exact .one rfl
        (.touch (World.deref_eq_ok.mp hz) ⟨rfl, rfl, rfl, rfl, rfl, rfl, rfl, rfl, rfl⟩ rfl)
  | setTimeout s tick stall =>
      obtain ⟨z, hz, h⟩ := bind_eq_ok.mp h
      cases h
      exact .one rfl
        (.touch (World.deref_eq_ok.mp hz) ⟨rfl, rfl, rfl, rfl, rfl, rfl, rfl, rfl, rfl⟩ rfl)

/-- No API call changes the mode. -/
theorem Api.not_may_mode (c : Api) (b : Bool) : ¬ c.may b .mode := by
  cases c <;> simp [Api.may]

/-- The kinds of moves a callback may make while the library is looping. -/
def scriptMay (script : List Api) (a : Act) : Prop := ∃ c ∈ script, c.may true a

/-- **A callback makes the moves its calls may make.** -/
theorem runScript_moves {script : List Api} (hw : w.WF) (hl : w.inLooping = true)
    (h : runScript script w = .ok w') : Moves (scriptMay script) w w' := by
  induction script generalizing w with
  | nil => cases h; exact .none
  | cons c cs ih =>
      obtain ⟨v, hc, h⟩ := bind_eq_ok.mp h
      have hm := c.run_moves hw hc
      rw [hl] at hm
      have hl' := (hm.inLooping_eq (c.not_may_mode true)).trans hl
      refine (hm.mono fun a ha => ⟨c, by simp, ha⟩).append ((ih (hm.wf hw) hl' h).mono ?_)
      rintro a ⟨c', hc', ha⟩
      exact ⟨c', by simp [hc'], ha⟩

/-- A callback unlinks no socket. -/
theorem not_scriptMay_unlink (script : List Api) (s : Sid) : ¬ scriptMay script (.unlink s) := by
  rintro ⟨c, -, hc⟩
  cases c <;> simp [Api.may] at hc

/-- A callback does not change the mode. -/
theorem not_scriptMay_mode (script : List Api) : ¬ scriptMay script .mode := by
  rintro ⟨c, -, hc⟩
  exact c.not_may_mode true hc

/-- Whether a call closes `s`. -/
def Api.closes (s : Sid) : Api → Bool
  | .close t _ => t = s
  | _ => false

/-- Whether a callback closes `s`. -/
def closes (script : List Api) (s : Sid) : Bool := script.any (Api.closes s)

/-- A callback that may close a socket closes it. -/
theorem closes_of_scriptMay {script : List Api} (h : scriptMay script (.close s)) :
    closes script s = true := by
  obtain ⟨c, hc, hm⟩ := h
  cases c <;> simp [Api.may] at hm
  case close t cb => exact List.any_eq_true.mpr ⟨_, hc, by simp [Api.closes, hm]⟩

/-- A callback abandons no socket. -/
theorem not_scriptMay_abandon (script : List Api) (s : Sid) : ¬ scriptMay script (.abandon s) := by
  rintro ⟨c, -, hc⟩
  cases c <;> simp [Api.may] at hc

end Calls

end LibZio
