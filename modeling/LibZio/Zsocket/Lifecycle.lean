import LibZio.Zsocket.System
import Mathlib.Logic.Relation

/-! # The life of a socket

Everything the library does to its state is a sequence of atomic *moves*. A move concerns one socket
and says in full what changes: the socket is initialised, opened, watched for reading or writing,
closed, unlinked, released or freed, or its private data changes. The two moves `recvFail` and
`recount` are the ones in which an error branch rewrites the state word of a socket: the first
clears the enable bits of an open socket and leaves it open, the second clears the EOF bit of a
closed one and closes it again. `World.WF` is the invariant of the heap, the list and the
descriptors that every move preserves. The functions of the library are shown to be sequences of
moves in `Refinement`; the invariants of later files are proved once per move. -/

namespace LibZio

/-! ## Descriptor sets and counters, in closed form -/

namespace World

/-- The world after `watchRead`. -/
def watchedRead (w : World) (fd : ℤ) : World :=
  { w with
    nfdsRead := if w.nfdsRead < fd + 1 then fd + 1 else w.nfdsRead
    fdsRead := insert fd w.fdsRead }

/-- The world after `unwatchRead`. -/
def unwatchedRead (w : World) (fd : ℤ) : World :=
  { w with
    nfdsRead := if w.nfdsRead = fd + 1 then w.nfdsRead - 1 else w.nfdsRead
    fdsRead := w.fdsRead.erase fd }

/-- The world after `watchWrite`. -/
def watchedWrite (w : World) (fd : ℤ) : World :=
  { w with
    nfdsWrite := if w.nfdsWrite < fd + 1 then fd + 1 else w.nfdsWrite
    fdsWrite := insert fd w.fdsWrite }

/-- The world after `unwatchWrite`. -/
def unwatchedWrite (w : World) (fd : ℤ) : World :=
  { w with
    nfdsWrite := if w.nfdsWrite = fd + 1 then w.nfdsWrite - 1 else w.nfdsWrite
    fdsWrite := w.fdsWrite.erase fd }

/-- `fd` is a descriptor the `fd_set` macros accept. -/
def InRange (fd : ℤ) : Prop := 0 ≤ fd ∧ fd < FD_SETSIZE

instance (fd : ℤ) : Decidable (InRange fd) := inferInstanceAs (Decidable (0 ≤ fd ∧ fd < FD_SETSIZE))

theorem watchRead_eq_ok {w w' : World} {fd : ℤ} :
    w.watchRead fd = .ok w' ↔ InRange fd ∧ w' = w.watchedRead fd := by
  unfold watchRead fdSet watchedRead InRange
  by_cases hr : 0 ≤ fd ∧ fd < FD_SETSIZE <;> by_cases hn : w.nfdsRead < fd + 1 <;>
    simp [hr, hn, eq_comm]

theorem unwatchRead_eq_ok {w w' : World} {fd : ℤ} :
    w.unwatchRead fd = .ok w' ↔ InRange fd ∧ w' = w.unwatchedRead fd := by
  unfold unwatchRead fdClr unwatchedRead InRange
  by_cases hr : 0 ≤ fd ∧ fd < FD_SETSIZE <;> by_cases hn : w.nfdsRead = fd + 1 <;>
    simp [hr, hn, eq_comm]

theorem watchWrite_eq_ok {w w' : World} {fd : ℤ} :
    w.watchWrite fd = .ok w' ↔ InRange fd ∧ w' = w.watchedWrite fd := by
  unfold watchWrite fdSet watchedWrite InRange
  by_cases hr : 0 ≤ fd ∧ fd < FD_SETSIZE <;> by_cases hn : w.nfdsWrite < fd + 1 <;>
    simp [hr, hn, eq_comm]

theorem unwatchWrite_eq_ok {w w' : World} {fd : ℤ} :
    w.unwatchWrite fd = .ok w' ↔ InRange fd ∧ w' = w.unwatchedWrite fd := by
  unfold unwatchWrite fdClr unwatchedWrite InRange
  by_cases hr : 0 ≤ fd ∧ fd < FD_SETSIZE <;> by_cases hn : w.nfdsWrite = fd + 1 <;>
    simp [hr, hn, eq_comm]

end World

namespace ZSocket

/-- The fields of a socket that has been closed and is not yet torn down. -/
def closed (z : ZSocket) (cb : Option Cb) : ZSocket :=
  { z with state := z.state ||| ZS_S_EOF, closeCb := cb }

/-- The fields of a socket that has been taken off the list. -/
def unlinked (z : ZSocket) : ZSocket := { z with node := .poisoned }

/-- The fields of a socket after its teardown. -/
def torn (z : ZSocket) : ZSocket :=
  { z with
    fd := -1, rbuf := none, wbuf := none, sdata := none, closeCb := none, readCb := none,
    connectedCb := none, connectionCb := none }

@[simp] theorem closed_node (z : ZSocket) (cb : Option Cb) : (z.closed cb).node = z.node := rfl

@[simp] theorem closed_eof (z : ZSocket) (cb : Option Cb) : (z.closed cb).eof = true :=
  hasFlag_or_self _ (by decide)

end ZSocket

namespace World

/-- The world in which the open socket `s`, with fields `z`, has been closed and is not yet torn
down. -/
def closedWorld (w : World) (s : Sid) (z : ZSocket) (cb : Option Cb) : World :=
  { ((w.unwatchedRead z.fd).unwatchedWrite z.fd).put s (z.closed cb) with
    status := w.status.countClose z.type
    trace := .closed s cb w.inLooping :: w.trace }

/-- The world in which the socket `s`, with fields `z`, is off the list. -/
def unlinkedWorld (w : World) (s : Sid) (z : ZSocket) : World :=
  { w.put s z.unlinked with socks := w.socks.erase s }

/-- The world in which the socket `s` has been opened with fields `z` and the new descriptor `fd`,
and accepted from the server `source` if there is one. -/
def openedWorld (w : World) (s : Sid) (z : ZSocket) (fd : ℕ) (source : Option Sid) : World :=
  { w.put s z with
    openFds := insert (fd : ℤ) w.openFds
    socks := s :: w.socks
    status := w.status.countOpen z.type
    trace := (source.map (Event.accepted · s)).toList ++ .opened s :: w.trace }

/-- `server` is an open server, as whose connection `z` is opened. -/
def Accepting (w : World) (server : Sid) (z : ZSocket) : Prop :=
  ∃ y, w.mem server = .live y ∧ y.node = .linked ∧ y.eof = false ∧ y.type = .server ∧
    z.type = .connection

/-- The world in which the unlinked socket `s`, with fields `z`, has given up its descriptor and its
memory. -/
def releasedWorld (w : World) (s : Sid) (z : ZSocket) : World :=
  ((((w.log (.shutdownFd z.fd)).closeFd z.fd).put s z.torn)).log (.tornDown s)

/-! ## Reading back what was written -/

@[simp] theorem put_mem_self (w : World) (s : Sid) (z : ZSocket) : (w.put s z).mem s = .live z := by
  simp [put]

theorem put_mem (w : World) (s t : Sid) (z : ZSocket) :
    (w.put s z).mem t = if t = s then .live z else w.mem t := by
  simp [put, Function.update_apply]

theorem put_mem_of_ne (w : World) {s t : Sid} (h : t ≠ s) (z : ZSocket) :
    (w.put s z).mem t = w.mem t := by simp [put, h]

@[simp] theorem put_socks (w : World) (s : Sid) (z : ZSocket) : (w.put s z).socks = w.socks := rfl

@[simp] theorem put_inLooping (w : World) (s : Sid) (z : ZSocket) :
    (w.put s z).inLooping = w.inLooping := rfl

@[simp] theorem log_mem (w : World) (e : Event) : (w.log e).mem = w.mem := rfl

/-- A successful dereference reads a live object. -/
@[simp] theorem deref_eq_ok {w : World} {s : Sid} {z : ZSocket} :
    w.deref s = .ok z ↔ w.mem s = .live z := by
  unfold deref
  cases w.mem s <;> simp

end World

/-! ## Moves -/

/-- The kind of a move, with the socket it concerns. -/
inductive Act
  | log
  | mode
  | init (s : Sid)
  | open (s : Sid)
  | watch (s : Sid)
  | unwatch (s : Sid)
  | watchWrite (s : Sid)
  | touch (s : Sid)
  | receive (s : Sid)
  | recvFail (s : Sid)
  | close (s : Sid)
  | abandon (s : Sid)
  | recount (s : Sid)
  | unlink (s : Sid)
  | release (s : Sid)
  | free (s : Sid)
  deriving DecidableEq

/-- `z'` differs from `z` in private data only: buffers, times and application data. -/
structure ZSocket.SameControl (z z' : ZSocket) : Prop where
  fd : z'.fd = z.fd
  laddr : z'.laddr = z.laddr
  type : z'.type = z.type
  state : z'.state = z.state
  node : z'.node = z.node
  closeCb : z'.closeCb = z.closeCb
  readCb : z'.readCb = z.readCb
  connectionCb : z'.connectionCb = z.connectionCb
  wbuf : z'.wbuf.isSome = z.wbuf.isSome

/-- `z'` is `z` once it has been opened with the descriptor `fd`. -/
structure ZSocket.OpenedAs (z z' : ZSocket) (fd : ℤ) : Prop where
  fd : z'.fd = fd
  state : z'.state = z.state
  node : z'.node = .linked
  type : z'.type ≠ .none
  readCb : z'.readCb = z.readCb
  wbuf : z'.wbuf = z.wbuf
  connectionCb : z'.type = .server → z'.connectionCb.isSome

/-- An event that changes no socket's life and is no call of a `close_cb`. -/
def Event.Plain : Event → Prop
  | .opened _ | .accepted _ _ | .closed _ _ _ | .tornDown _ | .freed _ | .closeCb _ _ => False
  | _ => True

/-- The atomic changes of the library's state. -/
inductive Move : Act → World → World → Prop
  /-- Something is observed that is neither an opening, a closing nor the end of a life. -/
  | log {w : World} (e : Event) (h : e.Plain) : Move .log w (w.log e)
  /-- `in_looping` is set. -/
  | mode {w : World} (b : Bool) : Move .mode w { w with inLooping := b }
  /-- A socket is initialised. -/
  | init {w : World} {s : Sid} (h : w.mem s = .unused) :
      Move (.init s) w
        (World.put
          (if w.libInit then w else { w with
            nfdsRead := 0, fdsRead := ∅, nfdsWrite := 0, fdsWrite := ∅, libInit := true })
          s .initial)
  /-- A socket is opened with a new descriptor and listed, perhaps accepted from a server. -/
  | open {w : World} {s : Sid} {z z' : ZSocket} {fd : ℕ} {source : Option Sid}
      (live : w.mem s = .live z) (node : z.node = .self) (fresh : (fd : ℤ) ∉ w.openFds)
      (opened : z.OpenedAs z' fd)
      (accepted : ∀ server, source = some server → w.Accepting server z') :
      Move (.open s) w (w.openedWorld s z' fd source)
  /-- A socket starts to be watched for reading. -/
  | watch {w : World} {s : Sid} {z : ZSocket} {cb : Option Cb} (live : w.mem s = .live z)
      (node : z.node = .linked) (eof : z.eof = false) (off : z.readEnable = false)
      (fd : World.InRange z.fd) (hcb : z.type ≠ .server → cb.isSome) :
      Move (.watch s) w
        ((w.watchedRead z.fd).put s
          { z with state := z.state ||| ZS_S_READ_ENABLE, readCb := cb })
  /-- A socket is no longer watched for reading. -/
  | unwatch {w : World} {s : Sid} {z : ZSocket} (live : w.mem s = .live z)
      (node : z.node = .linked) (eof : z.eof = false) (on : z.readEnable = true)
      (fd : World.InRange z.fd) :
      Move (.unwatch s) w
        ((w.unwatchedRead z.fd).put s
          { z with state := z.state &&& ~~~ZS_S_READ_ENABLE, readCb := none })
  /-- A socket gets a write buffer and starts to be watched for writing. -/
  | watchWrite {w : World} {s : Sid} {z : ZSocket} {q : QBuf} (live : w.mem s = .live z)
      (node : z.node = .linked) (eof : z.eof = false) (off : z.writeEnable = false)
      (fd : World.InRange z.fd) :
      Move (.watchWrite s) w
        ((w.watchedWrite z.fd).put s
          { z with state := z.state ||| ZS_S_WRITE_ENABLE, wbuf := some q })
  /-- Private data of a socket changes, except for its read buffer. -/
  | touch {w : World} {s : Sid} {z z' : ZSocket} (live : w.mem s = .live z)
      (same : z.SameControl z') (rbuf : z'.rbuf = z.rbuf) : Move (.touch s) w (w.put s z')
  /-- The read buffer of a socket or the time of its last activity changes. -/
  | receive {w : World} {s : Sid} {z z' : ZSocket} (live : w.mem s = .live z)
      (same : z.SameControl z') : Move (.receive s) w (w.put s z')
  /-- A failed `recv` rewrites the state word of an open socket. -/
  | recvFail {w : World} {s : Sid} {z z' : ZSocket} (live : w.mem s = .live z)
      (node : z.node = .linked) (eof : z.eof = false)
      (same : ZSocket.SameControl { z with state := z.state &&& ZS_S_READ_FAILED } z') :
      Move (.recvFail s) w (w.put s z')
  /-- An open socket is closed. -/
  | close {w : World} {s : Sid} {z : ZSocket} {cb : Option Cb} (live : w.mem s = .live z)
      (node : z.node = .linked) (eof : z.eof = false) (fd : World.InRange z.fd) :
      Move (.close s) w (w.closedWorld s z cb)
  /-- An open socket is closed by an error branch that rewrites its state word first. -/
  | abandon {w : World} {s : Sid} {z z' : ZSocket} {m : BitVec 32} (live : w.mem s = .live z)
      (node : z.node = .linked) (eof : z.eof = false) (fd : World.InRange z.fd)
      (mask : m &&& ZS_S_EOF = 0)
      (same : ZSocket.SameControl { z with state := z.state &&& m } z') :
      Move (.abandon s) w ((w.put s z').closedWorld s z' none)
  /-- A closed socket is closed once more by an error branch that clears its EOF bit first. -/
  | recount {w : World} {s : Sid} {z z' : ZSocket} {m : BitVec 32} (live : w.mem s = .live z)
      (node : z.node = .linked) (eof : z.eof = true) (fd : World.InRange z.fd)
      (mask : m &&& ZS_S_EOF = 0)
      (same : ZSocket.SameControl { z with state := z.state &&& m } z') :
      Move (.recount s) w ((w.put s z').closedWorld s z' none)
  /-- A closed socket is taken off the list. -/
  | unlink {w : World} {s : Sid} {z : ZSocket} (live : w.mem s = .live z)
      (node : z.node = .linked) (eof : z.eof = true) : Move (.unlink s) w (w.unlinkedWorld s z)
  /-- An unlinked socket gives up its descriptor and its memory. -/
  | release {w : World} {s : Sid} {z : ZSocket} (live : w.mem s = .live z)
      (node : z.node = .poisoned) : Move (.release s) w (w.releasedWorld s z)
  /-- The object of an unlinked socket is freed. -/
  | free {w : World} {s : Sid} {z : ZSocket} (live : w.mem s = .live z)
      (node : z.node = .poisoned) :
      Move (.free s) w
        (World.log { w with mem := Function.update w.mem s .freed } (.freed s))

/-- A sequence of moves of kinds in `P`. -/
def Moves (P : Act → Prop) : World → World → Prop :=
  Relation.ReflTransGen fun w w' => ∃ a, P a ∧ Move a w w'

end LibZio
