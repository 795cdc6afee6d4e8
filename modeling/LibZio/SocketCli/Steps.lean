import LibZio.SocketCli.Basic

/-! # What a call on a client can do

One relation for each function, with a constructor for each way through it that names its guards and
its whole effect. Every successful call is an instance of its relation, so that invariants are
proved by cases on these and never by unfolding the functions. -/

namespace LibZio

namespace SocketCli

/-- The client with the descriptor `fd` in its backend data. -/
def setSocket (s : SocketCli) (fd : ℤ) : SocketCli :=
  { s with backendData := { s.backendData with socketId := fd } }

@[simp] theorem setSocket_socketId (s : SocketCli) (fd : ℤ) :
    (s.setSocket fd).backendData.socketId = fd := rfl

@[simp] theorem setSocket_tId (s : SocketCli) (fd : ℤ) :
    (s.setSocket fd).backendData.tId = s.backendData.tId := rfl

@[simp] theorem setSocket_isConnect (s : SocketCli) (fd : ℤ) :
    (s.setSocket fd).isConnect = s.isConnect := rfl

@[simp] theorem setSocket_async (s : SocketCli) (fd : ℤ) : (s.setSocket fd).async = s.async := rfl

/-- The client with the callback and the thread of a registration. -/
def setReader (s : SocketCli) (recvCb : Cb) (thread : Option Tid) : SocketCli :=
  { s with backendData := { s.backendData with recvCb := some recvCb, tId := thread } }

@[simp] theorem setReader_socketId (s : SocketCli) (recvCb : Cb) (thread : Option Tid) :
    (s.setReader recvCb thread).backendData.socketId = s.backendData.socketId := rfl

@[simp] theorem setReader_tId (s : SocketCli) (recvCb : Cb) (thread : Option Tid) :
    (s.setReader recvCb thread).backendData.tId = thread := rfl

@[simp] theorem setReader_isConnect (s : SocketCli) (recvCb : Cb) (thread : Option Tid) :
    (s.setReader recvCb thread).isConnect = s.isConnect := rfl

@[simp] theorem setReader_async (s : SocketCli) (recvCb : Cb) (thread : Option Tid) :
    (s.setReader recvCb thread).async = s.async := rfl

end SocketCli

/-- The events of a `socket` that gave `fd`, up to the call of `connect`. -/
def SocketCli.opening (s : SocketCli) (fd : ℕ) : List CliEvent :=
  [.sndTimeout fd (s.conTimeout.tdiv 1000) (s.conTimeout.tmod 1000 * 1000), .socket fd]

/-- The events of closing a connection. -/
def SocketCli.closing (s : SocketCli) : List CliEvent :=
  if s.async ≠ 0 then [.closed s.backendData.socketId, .joined s.backendData.tId]
  else [.closed s.backendData.socketId]

/-- The ways through `socket_connect`. -/
inductive Connects (answer : ConnectAnswer) (w : CliWorld) : ℤ → CliWorld → Prop
  /-- The client is connected. -/
  | busy {s : SocketCli} (cli : w.cli = some s) (on : s.isConnect = true) :
      Connects answer w (-1) w
  /-- `socket` gives no descriptor. -/
  | noSocket {s : SocketCli} (cli : w.cli = some s) (off : s.isConnect = false)
      (socket : answer.socket = none) :
      Connects answer w (-1)
        (w.put { s.setSocket INVALID_SOCKET with errCode := answer.errno })
  /-- `connect` fails on the new descriptor. -/
  | refused {s : SocketCli} {fd : ℕ} (cli : w.cli = some s) (off : s.isConnect = false)
      (socket : answer.socket = some fd) (fresh : (fd : ℤ) ∉ w.openFds)
      (connect : answer.connect = false) :
      Connects answer w (-1)
        ⟨some { s.setSocket fd with errCode := answer.errno }, s.opening fd ++ w.trace⟩
  /-- The connection stands. -/
  | connected {s : SocketCli} {fd : ℕ} (cli : w.cli = some s) (off : s.isConnect = false)
      (socket : answer.socket = some fd) (fresh : (fd : ℤ) ∉ w.openFds)
      (connect : answer.connect = true) :
      Connects answer w 0
        ⟨some { s.setSocket fd with isConnect := true },
          .connected fd s.backendData.remoteAddr :: (s.opening fd ++ w.trace)⟩

/-- The ways through `socket_register_notify`. -/
inductive Registers (recvCb : Cb) (thread : Option Tid) (w : CliWorld) : CliWorld → Prop
  /-- The client is not connected, or reads synchronously. -/
  | refused {s : SocketCli} (cli : w.cli = some s) (off : s.isConnect = false ∨ s.async = 0) :
      Registers recvCb thread w w
  /-- `pthread_create` fails, which the function does not notice. -/
  | noThread {s : SocketCli} (cli : w.cli = some s) (on : s.isConnect = true) (async : s.async ≠ 0)
      (failed : thread = none) :
      Registers recvCb thread w (w.put (s.setReader recvCb none))
  /-- The thread `t` is created. -/
  | created {s : SocketCli} {t : Tid} (cli : w.cli = some s) (on : s.isConnect = true)
      (async : s.async ≠ 0) (given : thread = some t) (fresh : some t ∉ w.running) :
      Registers recvCb thread w ((w.put (s.setReader recvCb (some t))).log (.created t))

/-- The ways through `__disconnect_tcp`. -/
inductive Disconnects (w : CliWorld) : CliWorld → Prop
  /-- There is no descriptor to close. -/
  | idle {s : SocketCli} (cli : w.cli = some s)
      (invalid : s.backendData.socketId = INVALID_SOCKET) :
      Disconnects w (w.put { s.setSocket INVALID_SOCKET with isConnect := false })
  /-- The descriptor is closed, after the join of an asynchronous client. -/
  | closed {s : SocketCli} (cli : w.cli = some s)
      (valid : s.backendData.socketId ≠ INVALID_SOCKET) :
      Disconnects w
        ⟨some { s.setSocket INVALID_SOCKET with isConnect := false }, s.closing ++ w.trace⟩

/-- The ways through a call. -/
inductive CliStep (w : CliWorld) : CliCall → CliWorld → Prop
  | connect {answer : ConnectAnswer} {rc : ℤ} {w' : CliWorld} (h : Connects answer w rc w') :
      CliStep w (.connect answer) w'
  | registerNotify {recvCb : Cb} {thread : Option Tid} {w' : CliWorld}
      (h : Registers recvCb thread w w') : CliStep w (.registerNotify recvCb thread) w'
  | disconnect {w' : CliWorld} (h : Disconnects w w') : CliStep w .disconnect w'
  | destory {w' : CliWorld} (h : Disconnects w w') :
      CliStep w .destory ({ w' with cli := none }.log .freed)

variable {w w' : CliWorld}

/-- A dereferenced client is there. -/
theorem CliWorld.deref_eq_ok {s : SocketCli} : w.deref = .ok s ↔ w.cli = some s := by
  unfold CliWorld.deref
  cases w.cli <;> simp

/-- Every `socket_connect` takes one of its ways. -/
theorem socketConnect_connects {answer : ConnectAnswer} {rc : ℤ}
    (h : socketConnect answer w = .ok (rc, w')) : Connects answer w rc w' := by
  obtain ⟨s, hs, h⟩ := bind_eq_ok.mp h
  have cli := CliWorld.deref_eq_ok.mp hs
  by_cases hon : s.isConnect = true
  · rw [if_pos hon] at h
    cases h
    exact .busy cli hon
  · rw [if_neg hon] at h
    have off := eq_false_of_ne_true hon
    cases hsock : answer.socket with
    | none =>
        simp only [hsock] at h
        cases h
        exact .noSocket cli off hsock
    | some fd =>
        simp only [hsock] at h
        obtain ⟨u, hfresh, h⟩ := bind_eq_ok.mp h
        have fresh := of_decide_eq_true (ensure_eq_ok.mp hfresh)
        cases hcon : answer.connect with
        | false =>
            rw [hcon, Bool.not_false, if_pos rfl] at h
            cases h
            exact .refused cli off hsock fresh hcon
        | true =>
            rw [hcon, Bool.not_true, if_neg Bool.false_ne_true] at h
            cases h
            exact .connected cli off hsock fresh hcon

/-- Every `socket_register_notify` takes one of its ways. -/
theorem socketRegisterNotify_registers {recvCb : Cb} {thread : Option Tid} {rc : ℤ}
    (h : socketRegisterNotify recvCb thread w = .ok (rc, w')) : Registers recvCb thread w w' := by
  obtain ⟨s, hs, h⟩ := bind_eq_ok.mp h
  have cli := CliWorld.deref_eq_ok.mp hs
  cases hon : s.isConnect with
  | false =>
      rw [hon, Bool.not_false, if_pos rfl] at h
      cases h
      exact .refused cli (.inl hon)
  | true =>
      rw [hon, Bool.not_true, if_neg Bool.false_ne_true] at h
      by_cases hasync : s.async = 0
      · rw [if_pos hasync] at h
        cases h
        exact .refused cli (.inr hasync)
      · rw [if_neg hasync] at h
        obtain ⟨u, hfresh, h⟩ := bind_eq_ok.mp h
        have fresh := of_decide_eq_true (ensure_eq_ok.mp hfresh)
        cases thread with
        | none =>
            cases h
            rw [← hon]
            exact .noThread cli hon hasync rfl
        | some t =>
            cases h
            rw [← hon]
            exact .created cli hon hasync rfl fresh

/-- Every disconnection takes one of its ways. -/
theorem disconnectTcp_disconnects {rc : ℤ} (h : disconnectTcp w = .ok (rc, w')) :
    Disconnects w w' := by
  obtain ⟨s, hs, h⟩ := bind_eq_ok.mp h
  have cli := CliWorld.deref_eq_ok.mp hs
  by_cases hid : s.backendData.socketId = INVALID_SOCKET
  · have hid' : ¬s.backendData.socketId ≠ INVALID_SOCKET := not_not.mpr hid
    dsimp only at h
    rw [if_neg hid'] at h
    cases h
    exact .idle cli hid
  · dsimp only at h
    rw [if_pos hid] at h
    have way := Disconnects.closed cli hid
    by_cases hasync : s.async ≠ 0
    · rw [if_pos hasync] at h
      rw [SocketCli.closing, if_pos hasync] at way
      cases h
      exact way
    · rw [if_neg hasync] at h
      rw [SocketCli.closing, if_neg hasync] at way
      cases h
      exact way

/-- **Every call takes one of its ways.** -/
theorem CliCall.run_step {c : CliCall} (h : c.run w = .ok w') : CliStep w c w' := by
  cases c with
  | connect answer =>
      obtain ⟨⟨rc, v⟩, hc, rfl⟩ := map_eq_ok.mp h
      exact .connect (socketConnect_connects hc)
  | registerNotify recvCb thread =>
      obtain ⟨⟨rc, v⟩, hr, rfl⟩ := map_eq_ok.mp h
      exact .registerNotify (socketRegisterNotify_registers hr)
  | disconnect =>
      obtain ⟨⟨rc, v⟩, hd, rfl⟩ := map_eq_ok.mp h
      exact .disconnect (disconnectTcp_disconnects hd)
  | destory =>
      obtain ⟨⟨rc, v⟩, hd, h⟩ := bind_eq_ok.mp h
      cases h
      exact .destory (disconnectTcp_disconnects hd)

end LibZio
