import LibZio.Zsocket.Api

/-! # The event loop

A translation of `zsocket_handle_recv`, `zsocket_handle_send`, `zsocket_poll`, `zsocket_do_close`
and `zsocket_loop`. A callback is the list of API calls it makes (`script`) and its result; it does
not call `zsocket_loop`, so the loop is never entered while one of its traversals is under way. One
iteration of each traversal is a function of its own (`pollVisit`, `doCloseVisit`), so that the
states between two iterations can be spoken of. -/

namespace LibZio

/-! ## Receiving -/

/-- What one call of `zsocket_handle_recv` is answered, and what its callback does. -/
structure RecvIo where
  /-- Whether the two `calloc` calls of `qbuf_new` succeed. -/
  callocSelf : Bool
  callocRaw : Bool
  /-- `recv`: the bytes received, or `-1`. -/
  recv : Option (List UInt8)
  /-- `time`. -/
  now : ℤ
  /-- The calls made by `read_cb` or `connection_cb`. -/
  script : List Api
  /-- The `int` returned by `read_cb`. -/
  nr : BitVec 32
  /-- The `realloc` that grows `rbuf`. -/
  grow : Realloc

/-- The lazy allocation of `rbuf`: `none` when it fails. -/
def recvAlloc (s : Sid) (io : RecvIo) (w : World) : Res (Option World) := do
  let z ← w.deref s
  match z.rbuf with
  | some _ => return some w
  | none =>
      match qbufNew READ_BUF_SIZE io.callocSelf io.callocRaw with
      | none => return none
      | some rbuf => return some (w.put s { z with rbuf := some rbuf })

/-- The `int` that `recv` returns. -/
def RecvIo.nrecv (io : RecvIo) : ℤ :=
  match io.recv with
  | none => -1
  | some bytes => intOfSize bytes.length

/-- `rbuf` after the `recv` into its spare space. The kernel writes the bytes at the in position and
returns their number, at most the length asked for. -/
def recvStore (rbuf : QBuf) (io : RecvIo) : Res QBuf := do
  let bytes := io.recv.getD []
  ensure (bytes.length ≤ qbufSpare rbuf) .environment
  let rawbuf ← orFail (store rbuf.rawbuf (qbufRawbufInPos rbuf) bytes) (.undefined .outOfBounds)
  let rbuf := { rbuf with rawbuf := rawbuf }
  if io.nrecv > 0 then return (qbufOffsetInHead rbuf (sizeOfInt io.nrecv)).2 else return rbuf

/-- The `recv`, up to the update of `tick`. -/
def recvFill (s : Sid) (io : RecvIo) (w : World) : Res World := do
  let z ← w.deref s
  let rbuf ← orFail z.rbuf (.undefined .nullBuffer)
  let asked := qbufSpare rbuf
  let rbuf ← recvStore rbuf io
  let w := w.log (.recv s asked io.nrecv)
  -- `&=` where a flag is set: all other flags are lost
  let z := if io.nrecv = -1 then { z with state := z.state &&& ZS_S_READ_FAILED } else z
  return w.put s { z with rbuf := some rbuf, tick := io.now }

/-- The bytes and the `int` length offered to `read_cb`. -/
def recvOffer (rbuf : QBuf) : Res (List UInt8 × ℤ) := do
  let buf ← orFail (load rbuf.rawbuf (qbufRawbufOutPos rbuf) (qbufUsed rbuf))
    (.undefined .outOfBounds)
  return (buf, intOfSize (qbufUsed rbuf))

/-- `rbuf` after the consumption of what `read_cb` used of the `len` bytes offered. The comparison
`nr > len` is made in `size_t`. -/
def recvConsume (rbuf : QBuf) (len : ℕ) (nr : BitVec 32) : Res QBuf := do
  -- a count above `len` is cut down to it
  let nr := if sizeOfInt nr.toInt > len then intOfSize len else nr.toInt
  if nr ≠ 0 then
    let rbuf := (qbufOffsetOutHead rbuf (sizeOfInt nr)).2
    let (_, rbuf) ← orFail (qbufCollect rbuf QBUF_COLLECT_POLICY_LESS_SPARE)
      (.undefined .outOfBounds)
    return rbuf
  else return rbuf

/-- The consumption, and the growth of a full `rbuf`. -/
def recvDrain (s : Sid) (len : ℕ) (io : RecvIo) (w : World) : Res World := do
  let z ← w.deref s
  let rbuf ← orFail z.rbuf (.undefined .nullBuffer)
  let rbuf ← recvConsume rbuf len io.nr
  if qbufSpare rbuf = 0 then
    let (rc, rbuf) := qbufRealloc rbuf (sizeShl1 (qbufSize rbuf)) io.grow
    if rc ≠ 0 then
      -- the growth failed; `&=` clears the EOF bit, and the close below asserts that it is clear
      let w := w.put s { z with rbuf := some rbuf, state := z.state &&& ZS_S_RBUF_RUNOUT }
      zsocketClose s none w
    else return w.put s { z with rbuf := some rbuf }
  else return w.put s { z with rbuf := some rbuf }

/-- The part of `zsocket_handle_recv` behind the lazy allocation: receive, call back, drain. -/
def recvDeliver (s : Sid) (io : RecvIo) (w : World) : Res World := do
  let w ← recvFill s io w
  let z ← w.deref s
  let cb ← orFail z.readCb (.assert .recvReadCb)
  let rbuf ← orFail z.rbuf (.undefined .nullBuffer)
  let (buf, len) ← recvOffer rbuf
  let w := w.log (.readCb s cb buf len)
  let w ← runScript io.script w
  -- a close in the callback is deferred, so that `s` still has its buffer
  ensure (decide (0 ≤ io.nr.toInt)) (.assert .recvCount)
  recvDrain s (qbufUsed rbuf) io w

/-- `zsocket_handle_recv`. -/
def zsocketHandleRecv (s : Sid) (io : RecvIo) (w : World) : Res World := do
  let z ← w.deref s
  ensure (z.type ≠ .none) (.assert .recvType)
  ensure (!z.eof) (.assert .recvEof)
  ensure z.readEnable (.assert .recvEnable)
  if z.type = .server then
    let cb ← orFail z.connectionCb (.assert .recvConnectionCb)
    runScript io.script (w.log (.connectionCb s cb))
  else
    match ← recvAlloc s io w with
    | none => return w
    | some w => recvDeliver s io w

/-! ## Sending -/

/-- What `send` is answered: the number of bytes it accepted, or `-1`. -/
abbrev SendIo : Type := Option ℕ

/-- The `int` that `send` returns. -/
def SendIo.nsend : SendIo → ℤ
  | none => -1
  | some n => intOfSize n

/-- `wbuf` after `nsend` bytes of it were sent. -/
def sendConsume (wbuf : QBuf) (nsend : ℤ) : Res QBuf := do
  let wbuf := (qbufOffsetOutHead wbuf (sizeOfInt nsend)).2
  let (_, wbuf) ← orFail (qbufCollect wbuf QBUF_COLLECT_POLICY_LESS_SPARE) (.undefined .outOfBounds)
  return wbuf

/-- `zsocket_handle_send`. -/
def zsocketHandleSend (s : Sid) (io : SendIo) (w : World) : Res World := do
  let z ← w.deref s
  ensure (z.type ≠ .none) (.assert .sendType)
  ensure (!z.eof) (.assert .sendEof)
  ensure z.writeEnable (.assert .sendEnable)
  let wbuf ← orFail z.wbuf (.assert .sendWbuf)
  if qbufUsed wbuf = 0 then return w
  else
    let offered ← orFail (load wbuf.rawbuf (qbufRawbufOutPos wbuf) (qbufUsed wbuf))
      (.undefined .outOfBounds)
    -- the kernel accepts at most what it is offered
    ensure (decide (io.getD 0 ≤ qbufUsed wbuf)) .environment
    let w := w.log (.send s offered io.nsend)
    if io.nsend = -1 then
      zsocketClose s none (w.put s { z with state := z.state &&& ZS_S_WRITE_FAILED })
    else if io.nsend > 0 then
      let wbuf ← sendConsume wbuf io.nsend
      -- a buffer that has no spare space even so closes the socket
      if qbufSpare wbuf = 0 then
        zsocketClose s none
          (w.put s { z with wbuf := some wbuf, state := z.state &&& ZS_S_WBUF_RUNOUT })
      else return w.put s { z with wbuf := some wbuf }
    else return w

/-! ## Polling -/

/-- What `select` is answered. -/
inductive SelectIo
  /-- `0`: nothing became ready in time. -/
  | timeout
  /-- `-1` with `errno == EINTR`. -/
  | interrupted
  /-- `-1` with any other `errno`. -/
  | failed
  /-- The sets of ready descriptors; the value returned is their total size. -/
  | ready (fdsRead fdsWrite : Finset ℤ)

/-- How `zsocket_poll` goes on after `select`. -/
inductive Selected
  /-- It returns this value. -/
  | done (rc : ℤ)
  /-- It visits the sockets, `nfdsSelected` descriptors being ready. -/
  | ready (fdsRead fdsWrite : Finset ℤ) (nfdsSelected : ℤ)

/-- The `select` of `zsocket_poll`. It reports only descriptors it was asked about. -/
def pollSelect (timeout : ℤ) (io : SelectIo) (w : World) : Res (Selected × World) :=
  let nfds := if w.nfdsRead > w.nfdsWrite then w.nfdsRead else w.nfdsWrite
  let w := w.log (.select nfds (timeout.tdiv 1000) (timeout.tmod 1000 * 1000))
  match io with
  | .timeout => .ok (.done 0, w)
  | .interrupted => .ok (.done 0, w)
  | .failed => .ok (.done (-1), w)
  | .ready fdsRead fdsWrite =>
      if fdsRead ⊆ w.fdsRead.filter (· < nfds) ∧ fdsWrite ⊆ w.fdsWrite.filter (· < nfds) ∧
          0 < fdsRead.card + fdsWrite.card then
        .ok (.ready fdsRead fdsWrite (fdsRead.card + fdsWrite.card), w)
      else .error .environment

/-- What one iteration of the traversal in `zsocket_poll` is answered. -/
structure VisitIo where
  recv : RecvIo
  send : SendIo

/-- One iteration of the traversal in `zsocket_poll`: whether a handler ran, and the world. -/
def pollVisit (fdsRead fdsWrite : Finset ℤ) (pos : Sid) (io : VisitIo) (w : World) :
    Res (Bool × World) := do
  let z ← w.deref pos
  let readable ← World.fdIsset z.fd fdsRead
  let w ← (if readable then zsocketHandleRecv pos io.recv w else .ok w : Res World)
  let z ← w.deref pos
  let writable ← World.fdIsset z.fd fdsWrite
  let w ← (if writable then zsocketHandleSend pos io.send w else .ok w : Res World)
  return (readable || writable, w)

/-- The traversal in `zsocket_poll` from the cursor `pos`, for at most `fuel` sockets. -/
def pollFrom (fdsRead fdsWrite : Finset ℤ) (io : Sid → VisitIo) :
    ℕ → Option Sid → ℤ → World → Res World
  | _, none, _, w => .ok w
  | 0, some _, _, _ => .error .fuel
  | fuel + 1, some pos, nfdsSelected, w => do
      let (handled, w) ← pollVisit fdsRead fdsWrite pos (io pos) w
      let nfdsSelected := if handled then nfdsSelected - 1 else nfdsSelected
      -- the count is of descriptors in the two sets, the decrement is one for each socket
      if handled && nfdsSelected = 0 then return w
      else
        let next ← w.listNext pos
        pollFrom fdsRead fdsWrite io fuel next nfdsSelected w

/-- `zsocket_poll`. -/
def zsocketPoll (timeout : ℤ) (select : SelectIo) (io : Sid → VisitIo) (w : World) :
    Res (ℤ × World) := do
  match ← pollSelect timeout select w with
  | (.done rc, w) => return (rc, w)
  | (.ready fdsRead fdsWrite nfdsSelected, w) =>
      let w ← pollFrom fdsRead fdsWrite io w.socks.length w.listFirst nfdsSelected w
      return (0, w)

/-! ## Deferred closing -/

/-- What one iteration of the traversal in `zsocket_do_close` is answered. -/
structure CloseIo where
  /-- `time`. -/
  now : ℤ
  /-- The calls made by `close_cb`. -/
  script : List Api

/-- Whether the inactivity timeout of a socket has run out. -/
def ZSocket.stale (z : ZSocket) (now : ℤ) : Bool :=
  z.type = .connection && now - z.tick > z.stall

/-- What `zsocket_do_close` does with an EOF socket. -/
def doCloseTeardown (pos : Sid) (io : CloseIo) (w : World) : Res World := do
  -- the teardown clears `close_cb`, which is read after it
  let w ← _zsocketClose pos w
  let z ← w.deref pos
  let w ← (match z.closeCb with
    | some cb => runScript io.script (w.log (.closeCb pos cb))
    | none => .ok w : Res World)
  let z ← w.deref pos
  -- only `zsocket_accept` allocates its object
  if z.type = .connection then w.free pos else return w

/-- One iteration of the traversal in `zsocket_do_close`. -/
def doCloseVisit (pos : Sid) (io : CloseIo) (w : World) : Res World := do
  let z ← w.deref pos
  let w ←
    (if z.stale io.now then
      -- `&=` clears the EOF bit here too
      zsocketClose pos none (w.put pos { z with state := z.state &&& ZS_S_TIMEOUT })
    else .ok w : Res World)
  let z ← w.deref pos
  if z.eof then doCloseTeardown pos io w else return w

/-- The successor of a cursor of `list_for_each_entry_safe`, which may be the list head. -/
def World.listNextSafe (w : World) : Option Sid → Res (Option Sid)
  | none => .ok w.listFirst
  | some s => w.listNext s

/-- The traversal in `zsocket_do_close` from the cursors `pos` and `n`, for at most `fuel`
sockets. -/
def doCloseFrom (io : Sid → CloseIo) : ℕ → Option Sid → Option Sid → World → Res World
  | _, none, _, w => .ok w
  | 0, some _, _, _ => .error .fuel
  | fuel + 1, some pos, n, w => do
      let w ← doCloseVisit pos (io pos) w
      -- `n` was read before the body ran, its successor after it
      let next ← w.listNextSafe n
      doCloseFrom io fuel n next w

/-- `zsocket_do_close`. -/
def zsocketDoClose (io : Sid → CloseIo) (w : World) : Res World := do
  let n ← w.listNextSafe w.listFirst
  doCloseFrom io w.socks.length w.listFirst n w

/-- `zsocket_loop`. -/
def zsocketLoop (timeout : ℤ) (select : SelectIo) (visits : Sid → VisitIo) (closes : Sid → CloseIo)
    (w : World) : Res (ℤ × World) := do
  let w := { w with inLooping := true }
  let (rc, w) ← zsocketPoll timeout select visits w
  -- `in_looping` stays set when the poll fails
  if rc = -1 then return (-1, w.log (.loopReturn (-1)))
  else
    let w ← zsocketDoClose closes w
    let w := { w with inLooping := false }
    return (0, w.log (.loopReturn 0))

end LibZio
