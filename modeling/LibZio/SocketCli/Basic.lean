import LibZio.Foundation.Ledger
import LibZio.Foundation.Machine
import LibZio.Zsocket.State

/-! # The client of `socket_cli.c`

The data of `socket_cli.h` and the functions that connect, disconnect and destroy a TCP client and
start its reader thread. The memory of the client and of its backend data is freed together, so one
optional record stands for both. What the operating system answers during a call is an argument. The
world records which descriptors were obtained and closed and which threads were created and joined;
a join is recorded also where the thread id was never set, which is then `none`. -/

namespace LibZio

/-- `pthread_t`. -/
abbrev Tid : Type := ℕ

/-- `INVALID_SOCKET`. -/
def INVALID_SOCKET : ℤ := -1

/-- `struct _socket_data`. The fields that `malloc` leaves unset are `none`. -/
structure SocketData where
  recvCb : Option Cb
  tId : Option Tid
  socketId : ℤ
  remoteAddr : SockaddrIn
  deriving DecidableEq, Repr

/-- `struct _socket_cli`. -/
structure SocketCli where
  debug : Bool
  isConnect : Bool
  errCode : ℤ
  async : ℤ
  conTimeout : ℤ
  backendData : SocketData
  deriving DecidableEq, Repr

/-- What a client does to the outside. -/
inductive CliEvent
  /-- `socket` gave the descriptor `fd`. -/
  | socket (fd : ℤ)
  /-- `setsockopt(fd, SOL_SOCKET, SO_SNDTIMEO, ..)`. -/
  | sndTimeout (fd tvSec tvUsec : ℤ)
  /-- `connect(fd, addr, ..)` succeeded. -/
  | connected (fd : ℤ) (addr : SockaddrIn)
  /-- `pthread_create` gave the thread `t`. -/
  | created (t : Tid)
  /-- `pthread_join(t, NULL)`. -/
  | joined (t : Option Tid)
  /-- `close(fd)`. -/
  | closed (fd : ℤ)
  /-- `free(s->backend_data)` and `free(s)`. -/
  | freed
  deriving DecidableEq, Repr

/-! ## The resources of a client -/

/-- Descriptors are acquired by `socket` and released by `close`. -/
def CliEvent.onFds : CliEvent → Entry ℤ
  | .socket fd => .acquire fd
  | .closed fd => .release fd
  | _ => .neither

/-- Threads are acquired by `pthread_create` and released by `pthread_join`. -/
def CliEvent.onThreads : CliEvent → Entry (Option Tid)
  | .created t => .acquire (some t)
  | .joined t => .release t
  | _ => .neither

/-- The threads created since `socket` last gave a descriptor. -/
def connectionThreads : List CliEvent → List Tid
  | [] => []
  | .socket _ :: _ => []
  | .created t :: es => t :: connectionThreads es
  | _ :: es => connectionThreads es

/-- The client and the outside. -/
structure CliWorld where
  /-- The client, until it is freed. -/
  cli : Option SocketCli
  /-- What happened so far, newest first. -/
  trace : List CliEvent
  deriving DecidableEq, Repr

namespace CliWorld

/-- The descriptors obtained and not yet closed. -/
abbrev openFds (w : CliWorld) : List ℤ := Ledger.held CliEvent.onFds w.trace

/-- The threads created and not yet joined. -/
abbrev running (w : CliWorld) : List (Option Tid) := Ledger.held CliEvent.onThreads w.trace

/-- The object behind the pointer. -/
def deref (w : CliWorld) : Res SocketCli :=
  match w.cli with
  | some s => .ok s
  | none => .error (.undefined .deadObject)

/-- Write the object. -/
def put (w : CliWorld) (s : SocketCli) : CliWorld := { w with cli := some s }

/-- The client is there and connected. -/
def isConnected (w : CliWorld) : Bool := w.cli.any fun s => s.isConnect

/-- The client is there with a descriptor in its record. -/
def holdsSocket (w : CliWorld) : Bool :=
  w.cli.any fun s => s.backendData.socketId ≠ INVALID_SOCKET

/-- Record an event. -/
def log (w : CliWorld) (e : CliEvent) : CliWorld := { w with trace := e :: w.trace }

end CliWorld

/-! ## The functions -/

/-- `socket_cli_new`, for the address that `htons` and `inet_pton` make of `port` and `addr`. -/
def socketCliNew (remoteAddr : SockaddrIn) (async conTimeout : ℤ) : CliWorld where
  cli := some
    { debug := false, isConnect := false, errCode := 0, async, conTimeout
      backendData := { recvCb := none, tId := none, socketId := INVALID_SOCKET, remoteAddr } }
  trace := []

/-- What `__connect_tcp` is answered. -/
structure ConnectAnswer where
  /-- `socket`: a descriptor, or `-1`. -/
  socket : Option ℕ
  /-- Whether `connect` succeeds. -/
  connect : Bool
  /-- `errno` after a failure. -/
  errno : ℤ
  deriving DecidableEq, Repr

/-- `__connect_tcp`. -/
def connectTcp (answer : ConnectAnswer) (w : CliWorld) : Res (ℤ × CliWorld) := do
  let s ← w.deref
  if s.isConnect then return (-1, w)
  match answer.socket with
  | none =>
      let data := { s.backendData with socketId := INVALID_SOCKET }
      return (-1, w.put { s with backendData := data, errCode := answer.errno })
  | some fd =>
      ensure ((fd : ℤ) ∉ w.openFds) .environment
      let w := w.log (.socket fd)
      let s := { s with backendData := { s.backendData with socketId := fd } }
      let w := w.log (.sndTimeout fd (s.conTimeout.tdiv 1000) (s.conTimeout.tmod 1000 * 1000))
      -- the descriptor stays in the record, and stays open
      if !answer.connect then return (-1, w.put { s with errCode := answer.errno })
      let w := w.log (.connected fd s.backendData.remoteAddr)
      return (0, w.put { s with isConnect := true })

/-- `__disconnect_tcp`. -/
def disconnectTcp (w : CliWorld) : Res (ℤ × CliWorld) := do
  let s ← w.deref
  let s := { s with isConnect := false }
  let w :=
    if s.backendData.socketId ≠ INVALID_SOCKET then
      -- the thread stored last is joined before its descriptor is closed
      let w := if s.async ≠ 0 then w.log (.joined s.backendData.tId) else w
      w.log (.closed s.backendData.socketId)
    else w
  return (0, w.put { s with backendData := { s.backendData with socketId := INVALID_SOCKET } })

/-- `__destory_tcp`. -/
def destoryTcp (w : CliWorld) : Res CliWorld := do
  let (_, w) ← disconnectTcp w
  return { w with cli := none }.log .freed

/-- `socket_connect`. -/
def socketConnect (answer : ConnectAnswer) (w : CliWorld) : Res (ℤ × CliWorld) :=
  connectTcp answer w

/-- `socket_register_notify`, where `pthread_create` answers `thread`: a thread, or a failure that
leaves `t_id` without a value. -/
def socketRegisterNotify (recvCb : Cb) (thread : Option Tid) (w : CliWorld) :
    Res (ℤ × CliWorld) := do
  let s ← w.deref
  if !s.isConnect then return (-1, w)
  if s.async = 0 then return (-1, w)
  ensure (thread ∉ w.running) .environment
  let w :=
    w.put { s with backendData := { s.backendData with recvCb := some recvCb, tId := thread } }
  match thread with
  -- the result of `pthread_create` is not read
  | none => return (0, w)
  | some t => return (0, w.log (.created t))

/-- `socket_disconnect`. -/
def socketDisconnect (w : CliWorld) : Res (ℤ × CliWorld) :=
  disconnectTcp w

/-- `socket_destory`. -/
def socketDestory (w : CliWorld) : Res CliWorld :=
  destoryTcp w

/-! ## A client as a machine -/

/-- One call on a client, with what the operating system answers. -/
inductive CliCall
  | connect (answer : ConnectAnswer)
  | registerNotify (recvCb : Cb) (thread : Option Tid)
  | disconnect
  | destory
  deriving DecidableEq, Repr

/-- Run a call. -/
def CliCall.run : CliCall → CliWorld → Res CliWorld
  | .connect answer, w => Prod.snd <$> socketConnect answer w
  | .registerNotify recvCb thread, w => Prod.snd <$> socketRegisterNotify recvCb thread w
  | .disconnect, w => Prod.snd <$> socketDisconnect w
  | .destory, w => socketDestory w

/-- A client, from `socket_cli_new` on. -/
def socketCli (remoteAddr : SockaddrIn) (async conTimeout : ℤ) :
    Machine CliWorld CliCall Fault where
  init := socketCliNew remoteAddr async conTimeout
  step w c := c.run w

end LibZio
