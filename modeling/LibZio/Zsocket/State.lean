import LibZio.Foundation.Fallible
import LibZio.Qbuf.Basic
import Mathlib.Data.Finset.Basic
import Mathlib.Data.Finset.Card
import Mathlib.Logic.Function.Basic

/-! # The state of the `zsocket` library

The data of `zsocket.h` and the globals of `zsocket.c`. A `struct zsocket *` is an identifier `Sid`
that names one life of one object, from `zsocket_init` to its teardown or `free`; memory that is
initialised again starts a new identifier. The circular list `socks` is a list of identifiers, and
the `node` of a socket records whether it is on the list, self-linked, or poisoned by `list_del`.
`World` also records what the library did to the outside (`trace`) and which of the descriptors it
was given are open. -/

namespace LibZio

/-- Names one life of a `struct zsocket`. -/
abbrev Sid : Type := ℕ

/-- A callback pointer. -/
abbrev Cb : Type := ℕ

/-! ## Constants of `zsocket.h` -/

def READ_BUF_SIZE : ℕ := 8192

def WRITE_BUF_SIZE : ℕ := 8192

def STALL_INTERVAL : ℤ := 60 * 5

/-- The number of descriptors an `fd_set` has room for. -/
def FD_SETSIZE : ℤ := 1024

def ZS_S_EOF : BitVec 32 := 0x1

def ZS_S_TIMEOUT : BitVec 32 := 1 <<< 1

def ZS_S_READ_ENABLE : BitVec 32 := 1 <<< 2

def ZS_S_WRITE_ENABLE : BitVec 32 := 1 <<< 3

def ZS_S_READ_FAILED : BitVec 32 := 1 <<< 4

def ZS_S_WRITE_FAILED : BitVec 32 := 1 <<< 5

def ZS_S_RBUF_RUNOUT : BitVec 32 := 1 <<< 6

def ZS_S_WBUF_RUNOUT : BitVec 32 := 1 <<< 7

/-! ## Sockets -/

/-- `enum __zsocket_type`. -/
inductive ZsType
  | none
  | client
  | server
  | connection
  deriving DecidableEq, Repr

/-- `struct sockaddr_in`. -/
structure SockaddrIn where
  sinAddr : UInt32 := 0
  sinPort : UInt16 := 0
  deriving DecidableEq, Repr

/-- A `struct list_head`, as far as the traversals can see it. -/
inductive Node
  /-- After `INIT_LIST_HEAD`: linked to itself. -/
  | self
  /-- On the list `socks`. -/
  | linked
  /-- After `list_del`: both pointers are poison. -/
  | poisoned
  deriving DecidableEq, Repr

/-- `struct zsocket`. -/
structure ZSocket where
  fd : ℤ
  laddr : SockaddrIn
  raddr : SockaddrIn
  type : ZsType
  state : BitVec 32
  tick : ℤ
  stall : ℤ
  rbuf : Option QBuf
  wbuf : Option QBuf
  sdata : Option (List UInt8)
  closeCb : Option Cb
  readCb : Option Cb
  connectedCb : Option Cb
  connectionCb : Option Cb
  node : Node
  deriving DecidableEq, Repr

/-- A socket as `zsocket_init` leaves it. -/
def ZSocket.initial : ZSocket where
  fd := -1
  laddr := {}
  raddr := {}
  type := .none
  state := 0
  tick := 0
  stall := STALL_INTERVAL
  rbuf := Option.none
  wbuf := Option.none
  sdata := Option.none
  closeCb := Option.none
  readCb := Option.none
  connectedCb := Option.none
  connectionCb := Option.none
  node := .self

namespace ZSocket

/-- `s->state & ZS_S_EOF`. -/
abbrev eof (z : ZSocket) : Bool := hasFlag z.state ZS_S_EOF

/-- `s->state & ZS_S_READ_ENABLE`. -/
abbrev readEnable (z : ZSocket) : Bool := hasFlag z.state ZS_S_READ_ENABLE

/-- `s->state & ZS_S_WRITE_ENABLE`. -/
abbrev writeEnable (z : ZSocket) : Bool := hasFlag z.state ZS_S_WRITE_ENABLE

end ZSocket

/-- `struct zsocket_status`, six `int` counters. -/
structure Status where
  nrCurrent : BitVec 32 := 0
  nrTotal : BitVec 32 := 0
  nrClosed : BitVec 32 := 0
  nrCurrentClient : BitVec 32 := 0
  nrCurrentServer : BitVec 32 := 0
  nrCurrentConnection : BitVec 32 := 0
  deriving DecidableEq, Repr

/-! ## Failures and observations -/

/-- The assertions of `zsocket.c`, by function. -/
inductive Assertion
  | teardownEof | teardownType
  | closeEof
  | connectEof
  | listenEof | listenCb
  | acceptEof
  | readStartEof | readStartEnable | readStartCb
  | readStopEof | readStopEnable
  | writeEof | writeWbuf
  | recvType | recvEof | recvEnable | recvConnectionCb | recvReadCb | recvCount
  | sendType | sendEof | sendEnable | sendWbuf
  deriving DecidableEq, Repr

/-- The kinds of undefined behaviour the model recognises. -/
inductive Undefined
  /-- An object that was never initialised or has been freed is accessed. -/
  | deadObject
  /-- A poisoned list node is followed or unlinked. -/
  | poisonedNode
  /-- A node that is on the list is added to it again. -/
  | relinkedNode
  /-- An `fd_set` macro is given a descriptor outside `[0, FD_SETSIZE)`. -/
  | fdRange
  /-- A copy leaves its buffer. -/
  | outOfBounds
  /-- A buffer pointer is `NULL`. -/
  | nullBuffer
  deriving DecidableEq, Repr

/-- Why a run of the model stops. -/
inductive Fault
  /-- An assertion fails and the program aborts. -/
  | assert (a : Assertion)
  /-- The behaviour of the C program is undefined. -/
  | undefined (u : Undefined)
  /-- The input is not an outcome the operating system, the allocator or a caller can produce. -/
  | environment
  /-- The bound on a traversal was too small. -/
  | fuel
  deriving DecidableEq, Repr

/-- The outcome of a function of the library. -/
abbrev Res (α : Type) : Type := Except Fault α

/-- What the library does to the outside, and the calls that change a socket's life. -/
inductive Event
  /-- A socket is opened and listed. -/
  | opened (s : Sid)
  /-- `accept` on `server` gave the connection `conn`. -/
  | accepted (server conn : Sid)
  /-- `zsocket_close(s, cb)` is past its assertion. -/
  | closed (s : Sid) (cb : Option Cb) (inLooping : Bool)
  /-- `__zsocket_close(s)` is done. -/
  | tornDown (s : Sid)
  /-- `free(s)`. -/
  | freed (s : Sid)
  /-- `shutdown(fd, SHUT_RDWR)`. -/
  | shutdownFd (fd : ℤ)
  /-- `close(fd)`. -/
  | closeFd (fd : ℤ)
  /-- `select(nfds, .., tv)`. -/
  | select (nfds tvSec tvUsec : ℤ)
  /-- `recv(s->fd, .., asked, 0)` returned `nrecv`. -/
  | recv (s : Sid) (asked : ℕ) (nrecv : ℤ)
  /-- `send(s->fd, offered, ..)` returned `nsend`. -/
  | send (s : Sid) (offered : List UInt8) (nsend : ℤ)
  /-- `close_cb(s)` is called. -/
  | closeCb (s : Sid) (cb : Cb)
  /-- `read_cb(s, buf, len)` is called. -/
  | readCb (s : Sid) (cb : Cb) (buf : List UInt8) (len : ℤ)
  /-- `connected_cb(s)` is called. -/
  | connectedCb (s : Sid) (cb : Cb)
  /-- `connection_cb(s)` is called. -/
  | connectionCb (s : Sid) (cb : Cb)
  /-- `zsocket_loop` returns. -/
  | loopReturn (rc : ℤ)
  deriving DecidableEq, Repr

/-! ## The world -/

/-- What the memory holds under an identifier. -/
inductive Slot
  | unused
  | live (z : ZSocket)
  | freed
  deriving DecidableEq, Repr

/-- The globals of `zsocket.c`, the memory of the sockets, and the outside. -/
structure World where
  libInit : Bool := false
  inLooping : Bool := false
  /-- The list `socks`, from `socks.next` on. -/
  socks : List Sid := []
  nfdsRead : ℤ := 0
  fdsRead : Finset ℤ := ∅
  nfdsWrite : ℤ := 0
  fdsWrite : Finset ℤ := ∅
  status : Status := {}
  mem : Sid → Slot := fun _ => .unused
  /-- The descriptors obtained and not yet closed. -/
  openFds : Finset ℤ := ∅
  /-- What happened so far, newest first. -/
  trace : List Event := []

namespace World

/-- The object behind a pointer. -/
def deref (w : World) (s : Sid) : Res ZSocket :=
  match w.mem s with
  | .live z => .ok z
  | _ => .error (.undefined .deadObject)

/-- Write an object. -/
def put (w : World) (s : Sid) (z : ZSocket) : World :=
  { w with mem := Function.update w.mem s (.live z) }

/-- Record an event. -/
def log (w : World) (e : Event) : World := { w with trace := e :: w.trace }

/-- `FD_SET(d, fds)`. -/
def fdSet (d : ℤ) (fds : Finset ℤ) : Res (Finset ℤ) :=
  if 0 ≤ d ∧ d < FD_SETSIZE then .ok (insert d fds) else .error (.undefined .fdRange)

/-- `FD_CLR(d, fds)`. -/
def fdClr (d : ℤ) (fds : Finset ℤ) : Res (Finset ℤ) :=
  if 0 ≤ d ∧ d < FD_SETSIZE then .ok (fds.erase d) else .error (.undefined .fdRange)

/-- `FD_ISSET(d, fds)`. -/
def fdIsset (d : ℤ) (fds : Finset ℤ) : Res Bool :=
  if 0 ≤ d ∧ d < FD_SETSIZE then .ok (decide (d ∈ fds)) else .error (.undefined .fdRange)

/-- The operating system hands out the descriptor `fd`, which is not open. -/
def openFd (w : World) (fd : ℕ) : Res World :=
  if (fd : ℤ) ∈ w.openFds then .error .environment
  else .ok { w with openFds := insert (fd : ℤ) w.openFds }

/-- `close(fd)`. -/
def closeFd (w : World) (fd : ℤ) : World :=
  { w with openFds := w.openFds.erase fd, trace := .closeFd fd :: w.trace }

/-- `list_add(&s->node, &socks)`. -/
def listAdd (w : World) (s : Sid) : Res World := do
  let z ← w.deref s
  match z.node with
  | .linked => .error (.undefined .relinkedNode)
  | _ => .ok { w.put s { z with node := .linked } with socks := s :: w.socks }

/-- `list_del(&s->node)`. Unlinking a self-linked node changes no other node. -/
def listDel (w : World) (s : Sid) : Res World := do
  let z ← w.deref s
  match z.node with
  | .poisoned => .error (.undefined .poisonedNode)
  | _ => .ok { w.put s { z with node := .poisoned } with socks := w.socks.erase s }

/-- The element behind `s`, where `none` is the list head `&socks`. -/
def successor : List Sid → Sid → Option Sid
  | [], _ => none
  | a :: l, s => if a = s then l.head? else successor l s

/-- `list_next_entry(pos, node)`. -/
def listNext (w : World) (s : Sid) : Res (Option Sid) := do
  let z ← w.deref s
  match z.node with
  | .self => .ok (some s)
  | .linked => .ok (successor w.socks s)
  | .poisoned => .error (.undefined .poisonedNode)

/-- `list_first_entry(&socks, .., node)`. -/
def listFirst (w : World) : Option Sid := w.socks.head?

end World

/-- `list_for_each_entry(pos, &socks, node) body`, from the cursor `pos`, for at most `fuel`
elements. The successor is read after the body has run. -/
def forEachEntry (body : Sid → World → Res World) : ℕ → Option Sid → World → Res World
  | _, none, w => .ok w
  | 0, some _, _ => .error .fuel
  | fuel + 1, some pos, w => do
      let w ← body pos w
      let next ← w.listNext pos
      forEachEntry body fuel next w

end LibZio
