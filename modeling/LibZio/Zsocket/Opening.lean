import LibZio.Zsocket.Counters

/-! # Opening is all or nothing

`zsocket_connect`, `zsocket_listen` and `zsocket_accept` open a socket or report failure. A failure
should leave nothing behind: the list, the descriptor sets and the counters as they were, and
whatever was obtained on the way released. Where `zsocket_accept` has its object and `accept` fails,
the object is handed to the general teardown, which asserts that it is EOF; an object that was just
initialised is not. -/

namespace LibZio

/-- A call that opens a socket, with what it is answered. -/
inductive Opening
  | connect (client : Sid) (addr : SockaddrIn) (cb : Option Cb) (io : ConnectIo)
  | listen (server : Sid) (addr : SockaddrIn) (cb : Option Cb) (io : ListenIo)
  | accept (server : Sid) (io : AcceptIo)

namespace Opening

/-- Make the call: the socket it opened, unless it reports failure, and the world. -/
def run (w : World) : Opening → Res (Option Sid × World)
  | .connect client addr cb io =>
      (fun r => (if r.1 = 0 then some client else none, r.2)) <$> zsocketConnect client addr cb io w
  | .listen server addr cb io =>
      (fun r => (if r.1 = 0 then some server else none, r.2)) <$> zsocketListen server addr cb io w
  | .accept server io => zsocketAccept server io w

/-- The type of the sockets a call opens. -/
def type : Opening → ZsType
  | .connect _ _ _ _ => .client
  | .listen _ _ _ _ => .server
  | .accept _ _ => .connection

/-- What the call is answered can be: a descriptor handed out is not open, the memory handed out is
not in use, and `accept` succeeds on a server only. -/
def Possible (w : World) : Opening → Prop
  | .connect _ _ _ io => ∀ fd : ℕ, io.socket = some fd → (fd : ℤ) ∉ w.openFds
  | .listen _ _ _ io => ∀ fd : ℕ, io.socket = some fd → (fd : ℤ) ∉ w.openFds
  | .accept server io =>
      (∀ conn, io.calloc = some conn → w.mem conn = .unused) ∧
        ∀ (fd : ℕ) (raddr : SockaddrIn), io.accept = some (fd, raddr) → (fd : ℤ) ∉ w.openFds ∧
          ∀ z, w.mem server = .live z → z.type = .server

end Opening

/-- Between `w` and `w'` the socket `s` of type `type` was opened: it is listed exactly once, and
the total, the current and the type's counter are one higher. -/
structure World.Gained (w w' : World) (s : Sid) (type : ZsType) : Prop where
  listed : w'.socks = s :: w.socks
  once : w'.socks.count s = 1
  total : w'.status.nrTotal = w.status.nrTotal + 1
  current : w'.status.nrCurrent = w.status.nrCurrent + 1
  types : ∀ t, w'.status.current t = w.status.current t + if t = type then 1 else 0

/-- Nothing is left of what happened between `w` and `w'`: list, descriptor sets and counters are as
they were, no descriptor was kept, and neither was an object. -/
structure World.Restored (w w' : World) : Prop where
  socks : w'.socks = w.socks
  fdsRead : w'.fdsRead = w.fdsRead
  fdsWrite : w'.fdsWrite = w.fdsWrite
  nfdsRead : w'.nfdsRead = w.nfdsRead
  nfdsWrite : w'.nfdsWrite = w.nfdsWrite
  status : w'.status = w.status
  openFds : w'.openFds = w.openFds
  mem : ∀ t, w'.mem t = w.mem t ∨ w.mem t = .unused ∧ w'.mem t = .freed

namespace Opening

/-- The call succeeds and its socket is opened, or it reports failure and nothing is left of it. -/
def Atomic (o : Opening) (w : World) : Prop :=
  match o.run w with
  | .ok (some s, w') => w.Gained w' s o.type
  | .ok (none, w') => w.Restored w'
  | .error _ => False

/-- The call does not reach a flaw of its function: the arguments meet the assertions, a socket that
gets opened is not open yet, a server's descriptor fits into an `fd_set`, and `accept` succeeds
whenever there is memory for the connection. -/
def Clean (w : World) : Opening → Prop
  | .connect client _ _ io => ∃ z, w.mem client = .live z ∧ z.eof = false ∧
      (io.socket.isSome = true → io.connect = true → z.node = .self)
  | .listen server _ cb io => ∃ z, w.mem server = .live z ∧ z.eof = false ∧ cb.isSome = true ∧
      ∀ fd : ℕ, io.socket = some fd → io.bind = true → z.node = .self ∧ (fd : ℤ) < FD_SETSIZE
  | .accept server io => ∃ z, w.mem server = .live z ∧ z.eof = false ∧
      (io.calloc.isSome = true → io.accept.isSome = true)

variable {w w' : World} {s : Sid} {z : ZSocket} {o : Opening}

/-- A call that returns is atomic if its outcome is. -/
theorem Atomic.of_run {r : Option Sid} (h : o.run w = .ok (r, w'))
    (gained : ∀ s, r = some s → w.Gained w' s o.type) (restored : r = none → w.Restored w') :
    o.Atomic w := by
  rw [Atomic, h]
  cases r with
  | some s => exact gained s rfl
  | none => exact restored rfl

/-- An atomic call returns. -/
theorem Atomic.returns (h : o.Atomic w) : ∃ r w', o.run w = .ok (r, w') := by
  rw [Atomic] at h
  cases hr : o.run w with
  | error e => rw [hr] at h; exact h.elim
  | ok p => exact ⟨p.1, p.2, rfl⟩

end Opening

namespace World

variable {w w' : World} {s : Sid} {z : ZSocket}

/-- Observing something restores. -/
theorem Restored.log (e : Event) : w.Restored (w.log e) :=
  ⟨rfl, rfl, rfl, rfl, rfl, rfl, rfl, fun _ => .inl rfl⟩

/-- Opening a socket that is not on the list gains it. -/
theorem Gained.opened (z : ZSocket) (fd : ℕ) (source : Option Sid) (hs : s ∉ w.socks)
    (ht : z.type ≠ .none) (socks : w'.socks = (w.openedWorld s z fd source).socks)
    (status : w'.status = (w.openedWorld s z fd source).status) : w.Gained w' s z.type := by
  obtain ⟨types, current, total, -⟩ := w.status.countOpen_spec ht
  refine ⟨socks, ?_, by rw [status]; exact total, by rw [status]; exact current,
    fun t => by rw [status]; exact types t⟩
  rw [socks]
  exact (List.count_cons_self ..).trans (by rw [List.count_eq_zero_of_not_mem hs])

end World

namespace Opening

variable {w w' : World} {s : Sid} {z : ZSocket} {o : Opening}

/-- **`zsocket_connect` is atomic** exactly when the client can be opened where it is connected. -/
theorem connect_atomic_iff {addr : SockaddrIn} {cb : Option Cb} {io : ConnectIo} (hw : w.WF)
    (possible : (connect s addr cb io).Possible w) :
    (connect s addr cb io).Atomic w ↔ (connect s addr cb io).Clean w := by
  constructor
  · intro h
    obtain ⟨r, w', hr⟩ := h.returns
    obtain ⟨⟨rc, v⟩, hc, -⟩ := map_eq_ok.mp hr
    obtain ⟨z, hz, he, ⟨hs, -⟩ | ⟨fd, hs, -, ⟨hc, -⟩ | ⟨-, hn, -⟩⟩⟩ := zsocketConnect_eq_ok.mp hc
    · exact ⟨z, hz, he, fun h => by rw [hs] at h; cases h⟩
    · exact ⟨z, hz, he, fun _ h => by rw [hc] at h; cases h⟩
    · exact ⟨z, hz, he, fun _ _ => hw.self_of_open hz he hn⟩
  · rintro ⟨z, hz, he, hself⟩
    have returns : ∀ {rc : ℤ} {v : World}, zsocketConnect s addr cb io w = .ok (rc, v) →
        (connect s addr cb io).run w = .ok (if rc = 0 then some s else none, v) :=
      fun h => map_eq_ok.mpr ⟨_, h, rfl⟩
    cases hs : io.socket with
    | none =>
        exact .of_run (returns (zsocketConnect_eq_ok.mpr ⟨z, hz, he, .inl ⟨hs, rfl, rfl⟩⟩))
          (fun _ h => nomatch h)
          fun _ => ⟨rfl, rfl, rfl, rfl, rfl, rfl, rfl, fun _ => .inl rfl⟩
    | some fd =>
        have hfd := possible fd hs
        cases hc : io.connect with
        | false =>
            exact .of_run (returns (zsocketConnect_eq_ok.mpr
              ⟨z, hz, he, .inr ⟨fd, hs, hfd, .inl ⟨hc, rfl, rfl⟩⟩⟩)) (fun _ h => nomatch h)
              fun _ => .log _
        | true =>
            have hn : z.node = .self := hself (by rw [hs]; rfl) hc
            refine .of_run (returns (zsocketConnect_eq_ok.mpr
              ⟨z, hz, he, .inr ⟨fd, hs, hfd, .inr ⟨hc, by rw [hn]; decide, rfl, rfl⟩⟩⟩)) ?_
              (fun h => nomatch h)
            rintro _ ⟨⟩
            refine World.Gained.opened (z.asClient addr cb io fd) fd none
              (hw.notMem_of_unlinked hz (by rw [hn]; decide)) (by simp [ZSocket.asClient]) ?_ ?_
            all_goals cases cb <;> rfl

/-- **`zsocket_listen` is atomic** exactly when the server can be opened and watched where it is
bound. -/
theorem listen_atomic_iff {addr : SockaddrIn} {cb : Option Cb} {io : ListenIo} (hw : w.WF)
    (possible : (listen s addr cb io).Possible w) :
    (listen s addr cb io).Atomic w ↔ (listen s addr cb io).Clean w := by
  constructor
  · intro h
    obtain ⟨r, w', hr⟩ := h.returns
    obtain ⟨⟨rc, v⟩, hc, -⟩ := map_eq_ok.mp hr
    obtain ⟨z, hz, he, hcb, ⟨hs, -⟩ | ⟨fd, hs, -, ⟨hc, -⟩ | ⟨-, hn, hrange, -⟩⟩⟩ :=
      zsocketListen_eq_ok.mp hc
    · exact ⟨z, hz, he, hcb, fun fd h => by rw [hs] at h; cases h⟩
    · exact ⟨z, hz, he, hcb, fun fd _ h => by rw [hc] at h; cases h⟩
    · refine ⟨z, hz, he, hcb, fun fd' h _ => ⟨hw.self_of_open hz he hn, ?_⟩⟩
      obtain rfl : fd = fd' := Option.some.inj (hs.symm.trans h)
      exact hrange.2
  · rintro ⟨z, hz, he, hcb, hfits⟩
    have returns : ∀ {rc : ℤ} {v : World}, zsocketListen s addr cb io w = .ok (rc, v) →
        (listen s addr cb io).run w = .ok (if rc = 0 then some s else none, v) :=
      fun h => map_eq_ok.mpr ⟨_, h, rfl⟩
    cases hs : io.socket with
    | none =>
        exact .of_run (returns (zsocketListen_eq_ok.mpr ⟨z, hz, he, hcb, .inl ⟨hs, rfl, rfl⟩⟩))
          (fun _ h => nomatch h)
          fun _ => ⟨rfl, rfl, rfl, rfl, rfl, rfl, rfl, fun _ => .inl rfl⟩
    | some fd =>
        have hfd := possible fd hs
        cases hc : io.bind with
        | false =>
            exact .of_run (returns (zsocketListen_eq_ok.mpr
              ⟨z, hz, he, hcb, .inr ⟨fd, hs, hfd, .inl ⟨hc, rfl, rfl⟩⟩⟩)) (fun _ h => nomatch h)
              fun _ => .log _
        | true =>
            obtain ⟨hn, hlt⟩ := hfits fd hs hc
            refine .of_run (returns (zsocketListen_eq_ok.mpr ⟨z, hz, he, hcb, .inr ⟨fd, hs, hfd,
              .inr ⟨hc, by rw [hn]; decide, ⟨Int.natCast_nonneg fd, hlt⟩, rfl, rfl⟩⟩⟩)) ?_
              (fun h => nomatch h)
            rintro _ ⟨⟩
            exact World.Gained.opened (z.asServer addr cb fd) fd none
              (hw.notMem_of_unlinked hz (by rw [hn]; decide)) (by simp [ZSocket.asServer]) rfl rfl

/-- **`zsocket_accept` is atomic** exactly when `accept` succeeds where there is memory. -/
theorem accept_atomic_iff {io : AcceptIo} (hw : w.WF) (possible : (accept s io).Possible w) :
    (accept s io).Atomic w ↔ (accept s io).Clean w := by
  constructor
  · intro h
    obtain ⟨r, w', hr⟩ := h.returns
    obtain ⟨z, hz, he, ⟨hcalloc, -⟩ | ⟨conn, fd, raddr, -, -, haccept, -⟩⟩ :=
      zsocketAccept_eq_ok.mp hr
    · exact ⟨z, hz, he, fun h => by rw [hcalloc] at h; cases h⟩
    · exact ⟨z, hz, he, fun _ => by rw [haccept]; rfl⟩
  · rintro ⟨z, hz, he, hsome⟩
    cases hcalloc : io.calloc with
    | none =>
        exact .of_run (zsocketAccept_eq_ok.mpr ⟨z, hz, he, .inl ⟨hcalloc, rfl, rfl⟩⟩)
          (fun _ h => nomatch h) fun _ => ⟨rfl, rfl, rfl, rfl, rfl, rfl, rfl, fun _ => .inl rfl⟩
    | some conn =>
        obtain ⟨⟨fd, raddr⟩, haccept⟩ := Option.isSome_iff_exists.mp (hsome (by rw [hcalloc]; rfl))
        have hu := possible.1 conn hcalloc
        obtain ⟨hfd, hserver⟩ := possible.2 fd raddr haccept
        have hrun := zsocketAccept_eq_ok.mpr ⟨z, hz, he,
          .inr ⟨conn, fd, raddr, hcalloc, hu, haccept, hserver z hz, hfd, rfl, rfl⟩⟩
        refine .of_run hrun ?_ (fun h => nomatch h)
        rintro _ ⟨⟩
        -- where there is a server the library is initialised: only the new object is added
        have hinit : w.initWorld conn = w.put conn .initial := by
          rw [World.initWorld, if_pos (hw.libInit_of_live hz)]
        rw [hinit]
        exact World.Gained.opened (ZSocket.initial.asConnection raddr io fd) fd (some s)
          (hw.notMem_of_unused hu) (by simp [ZSocket.asConnection]) rfl rfl

end Opening

variable {w : World}

/-- **When opening is all or nothing.** In every world the program can look at and for every answer,
`zsocket_connect`, `zsocket_listen` and `zsocket_accept` are atomic exactly when they do not reach a
flaw. -/
theorem opening_atomic_iff (h : Sys.Seen Machine.anyStep w) (o : Opening)
    (possible : o.Possible w) : o.Atomic w ↔ o.Clean w := by
  cases o with
  | connect client addr cb io => exact Opening.connect_atomic_iff h.wf possible
  | listen server addr cb io => exact Opening.listen_atomic_iff h.wf possible
  | accept server io => exact Opening.accept_atomic_iff h.wf possible

/-- Whether `0` is an open server, the memory under `1` is not in use and the descriptor `4` is not
open. -/
def canAccept (w : World) : Bool :=
  decide ((4 : ℤ) ∉ w.openFds) && w.mem 1 = .unused &&
    match w.mem 0 with
    | .live z => decide (z.eof = false ∧ z.type = .server)
    | _ => false

/-- A server is reached that can accept. -/
theorem canAccept_reached : ∃ c : Sys, zio.Reach Machine.anyStep c ∧ canAccept c.world = true :=
  Machine.Reach.of_leadsTo (P := fun c => canAccept c.world) .init
    (show zio.leadsTo Machine.anyStep _ ((acceptOne 8000).take 2) zio.init = true by decide +kernel)

/-- What it takes to accept. -/
theorem canAccept_iff : canAccept w = true ↔ (4 : ℤ) ∉ w.openFds ∧ w.mem 1 = .unused ∧
    ∃ z, w.mem 0 = .live z ∧ z.eof = false ∧ z.type = .server := by
  rw [canAccept, Bool.and_eq_true, Bool.and_eq_true, decide_eq_true_eq, decide_eq_true_eq,
    and_assoc]
  refine and_congr_right fun _ => and_congr_right fun _ => ?_
  cases w.mem 0 <;> simp

/-- A connection that is accepted with the descriptor `4` is opened. -/
theorem opening_atomic_accept : ∃ w : World,
    (Opening.accept 0 ⟨some 1, some (4, ⟨0, 4000⟩), ⟨0, 8000⟩, 0⟩).Atomic w := by
  obtain ⟨c, r, h⟩ := canAccept_reached
  obtain ⟨hfd, hu, z, hz, he, hserver⟩ := canAccept_iff.mp h
  refine ⟨c.world, (opening_atomic_iff (.between r)
    (.accept 0 ⟨some 1, some (4, ⟨0, 4000⟩), ⟨0, 8000⟩, 0⟩) ⟨?_, ?_⟩).mpr ⟨z, hz, he, fun _ => rfl⟩⟩
  · rintro conn ⟨⟩
    exact hu
  · rintro fd raddr ⟨⟩
    refine ⟨hfd, fun y hy => ?_⟩
    obtain rfl : z = y := Slot.live.inj (hz.symm.trans hy)
    exact hserver

/-- An `accept` that fails aborts the program. -/
theorem opening_accept_aborts : ∃ (w : World) (o : Opening),
    Sys.Seen Machine.anyStep w ∧ o.Possible w ∧ o.run w = .error (.assert .teardownEof) ∧
      ¬ o.Atomic w := by
  obtain ⟨c, r, h⟩ := canAccept_reached
  obtain ⟨-, hu, z, hz, he, -⟩ := canAccept_iff.mp h
  have hrun : (Opening.accept 0 ⟨some 1, none, ⟨0, 8000⟩, 0⟩).run c.world =
      .error (.assert .teardownEof) := by
    rw [Opening.run, zsocketAccept, World.deref_eq_ok.mpr hz, ok_bind, he, Bool.not_false,
      ensure_true, ok_bind]
    dsimp only
    rw [zsocketInit_eq_ok.mpr ⟨hu, rfl⟩, ok_bind, _zsocketClose, _zsocketCloseFuel,
      World.deref_eq_ok.mpr (World.put_mem_self _ _ _), ok_bind]
    rfl
  refine ⟨c.world, .accept 0 ⟨some 1, none, ⟨0, 8000⟩, 0⟩, .between r, ⟨?_, ?_⟩, hrun, ?_⟩
  · rintro conn ⟨⟩
    exact hu
  · rintro fd raddr ⟨⟩
  · rw [Opening.Atomic, hrun]
    exact id

end LibZio
