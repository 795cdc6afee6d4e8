import LibZio.Zsocket.State

/-! # The functions of the `zsocket` API

A translation of the public functions of `zsocket.c` that callers use outside `zsocket_loop` and
inside callbacks. What the operating system, the allocator and the clock answer during a call is an
argument (`ConnectIo`, `ListenIo`, `AcceptIo`, `WriteIo`). `Api` is one such call with its answers;
a callback is a list of them. A `connected_cb` runs as the last action of `zsocket_connect`, so the
calls it makes are the ones that follow the `connect` in the list.

`zsocket_loop` is not among these calls: a callback of the model never enters the loop again. The
source has no guard against that, and what is proved about callbacks here and in the modules above
does not speak of one that does. -/

namespace LibZio

/-! ## Descriptor sets -/

/-- Raise `nfds_read` above `fd` and set `fd` in `__fds_read`. -/
def World.watchRead (w : World) (fd : ℤ) : Res World := do
  let w := if w.nfdsRead < fd + 1 then { w with nfdsRead := fd + 1 } else w
  let fds ← World.fdSet fd w.fdsRead
  return { w with fdsRead := fds }

/-- Lower `nfds_read` when `fd` is the top descriptor and clear `fd` in `__fds_read`. -/
def World.unwatchRead (w : World) (fd : ℤ) : Res World := do
  let w := if w.nfdsRead = fd + 1 then { w with nfdsRead := w.nfdsRead - 1 } else w
  let fds ← World.fdClr fd w.fdsRead
  return { w with fdsRead := fds }

/-- Raise `nfds_write` above `fd` and set `fd` in `__fds_write`. -/
def World.watchWrite (w : World) (fd : ℤ) : Res World := do
  let w := if w.nfdsWrite < fd + 1 then { w with nfdsWrite := fd + 1 } else w
  let fds ← World.fdSet fd w.fdsWrite
  return { w with fdsWrite := fds }

/-- Lower `nfds_write` when `fd` is the top descriptor and clear `fd` in `__fds_write`. -/
def World.unwatchWrite (w : World) (fd : ℤ) : Res World := do
  let w := if w.nfdsWrite = fd + 1 then { w with nfdsWrite := w.nfdsWrite - 1 } else w
  let fds ← World.fdClr fd w.fdsWrite
  return { w with fdsWrite := fds }

/-! ## Counters -/

/-- The counters after a socket of type `type` is opened. -/
def Status.countOpen (st : Status) (type : ZsType) : Status :=
  let st := { st with nrTotal := st.nrTotal + 1 }
  let st := { st with nrCurrent := st.nrCurrent + 1 }
  match type with
  | .client => { st with nrCurrentClient := st.nrCurrentClient + 1 }
  | .server => { st with nrCurrentServer := st.nrCurrentServer + 1 }
  | .connection => { st with nrCurrentConnection := st.nrCurrentConnection + 1 }
  | .none => st

/-- The counters after a socket of type `type` is closed. -/
def Status.countClose (st : Status) (type : ZsType) : Status :=
  let st := { st with nrClosed := st.nrClosed + 1 }
  let st := { st with nrCurrent := st.nrCurrent - 1 }
  match type with
  | .client => { st with nrCurrentClient := st.nrCurrentClient - 1 }
  | .server => { st with nrCurrentServer := st.nrCurrentServer - 1 }
  | .connection => { st with nrCurrentConnection := st.nrCurrentConnection - 1 }
  | .none => st

/-! ## Initialisation and closing -/

/-- `zsocket_init`, on memory under a new identifier. -/
def zsocketInit (s : Sid) (w : World) : Res World :=
  match w.mem s with
  | .unused =>
      let w :=
        if w.libInit then w
        else { w with nfdsRead := 0, fdsRead := ∅, nfdsWrite := 0, fdsWrite := ∅, libInit := true }
      .ok (w.put s .initial)
  | _ => .error .environment

/-- `zsocket_close`, with the teardown it runs when the library is not looping. -/
def zsocketCloseWith (teardown : Sid → World → Res World) (s : Sid) (cb : Option Cb) (w : World) :
    Res World := do
  let z ← w.deref s
  ensure (!z.eof) (.assert .closeEof)
  -- a descriptor leaves both sets before its socket is marked as closed
  let w ← w.unwatchRead z.fd
  let w ← w.unwatchWrite z.fd
  let w := w.put s { z with state := z.state ||| ZS_S_EOF, closeCb := cb }
  let w := { w with status := w.status.countClose z.type }
  let w := w.log (.closed s cb w.inLooping)
  -- inside the loop the teardown is left to `zsocket_do_close`
  if w.inLooping then return w
  else teardown s w

/-- The body of the traversal in `__zsocket_close`: close `pos` if its port is `port`. -/
def cascadeBody (teardown : Sid → World → Res World) (port : UInt16) (pos : Sid) (w : World) :
    Res World := do
  let p ← w.deref pos
  if p.laddr.sinPort = port then zsocketCloseWith teardown pos none w
  else return w

/-- `__zsocket_close`, for at most `fuel` nested teardowns. -/
def _zsocketCloseFuel : ℕ → Sid → World → Res World
  | 0, _, _ => .error .fuel
  | fuel + 1, s, w => do
      let z ← w.deref s
      ensure z.eof (.assert .teardownEof)
      ensure (z.type ≠ .none) (.assert .teardownType)
      let w ← w.listDel s
      let w ←
        (if z.type = .server then
          forEachEntry (cascadeBody (_zsocketCloseFuel fuel) z.laddr.sinPort) w.socks.length
            w.listFirst w
        else .ok w : Res World)
      -- the descriptor is read before the object is cleared, and is `-1` from then on
      let w := w.log (.shutdownFd z.fd)
      let w := w.closeFd z.fd
      let z ← w.deref s
      let z := { z with
        fd := -1, rbuf := none, wbuf := none, sdata := none, closeCb := none, readCb := none,
        connectedCb := none, connectionCb := none }
      return (w.put s z).log (.tornDown s)

/-- `__zsocket_close`. Each nested teardown takes a socket off the list. -/
def _zsocketClose (s : Sid) (w : World) : Res World :=
  _zsocketCloseFuel (w.socks.length + 1) s w

/-- `zsocket_close`. -/
def zsocketClose (s : Sid) (cb : Option Cb) (w : World) : Res World :=
  zsocketCloseWith _zsocketClose s cb w

/-! ## Opening -/

/-- What `zsocket_connect` is answered. -/
structure ConnectIo where
  /-- `socket`: a descriptor, or `-1`. -/
  socket : Option ℕ
  /-- Whether `connect` succeeds. -/
  connect : Bool
  /-- `getsockname`. -/
  laddr : SockaddrIn
  /-- `time`. -/
  now : ℤ

/-- `zsocket_connect`. -/
def zsocketConnect (client : Sid) (addr : SockaddrIn) (cb : Option Cb) (io : ConnectIo)
    (w : World) : Res (ℤ × World) := do
  let z ← w.deref client
  ensure (!z.eof) (.assert .connectEof)
  match io.socket with
  | none => return (-1, w)
  | some fd =>
      let w ← w.openFd fd
      if !io.connect then return (-1, w.closeFd fd)
      else
        -- the option `SO_REUSEADDR` changes nothing that is modelled
        let w := w.put client { z with
          fd := fd, raddr := addr, laddr := io.laddr, type := .client, tick := io.now,
          connectedCb := cb }
        let w ← w.listAdd client
        let w := { w with status := w.status.countOpen .client }
        let w := w.log (.opened client)
        match cb with
        | some cb => return (0, w.log (.connectedCb client cb))
        | none => return (0, w)

/-- What `zsocket_listen` is answered. -/
structure ListenIo where
  /-- `socket`: a descriptor, or `-1`. -/
  socket : Option ℕ
  /-- Whether `bind` succeeds. -/
  bind : Bool

/-- `zsocket_listen`. -/
def zsocketListen (server : Sid) (addr : SockaddrIn) (cb : Option Cb) (io : ListenIo) (w : World) :
    Res (ℤ × World) := do
  let z ← w.deref server
  ensure (!z.eof) (.assert .listenEof)
  ensure cb.isSome (.assert .listenCb)
  match io.socket with
  | none => return (-1, w)
  | some fd =>
      let w ← w.openFd fd
      if !io.bind then return (-1, w.closeFd fd)
      else
        let z := { z with fd := fd, laddr := addr, type := ZsType.server, connectionCb := cb }
        let w := w.put server z
        let w ← w.listAdd server
        let w := { w with status := w.status.countOpen .server }
        let w := w.log (.opened server)
        -- a listening socket is watched from the start
        let w ← w.watchRead z.fd
        let z ← w.deref server
        return (0, w.put server { z with state := z.state ||| ZS_S_READ_ENABLE })

/-- What `zsocket_accept` is answered. -/
structure AcceptIo where
  /-- `calloc`: a new object, or `NULL`. -/
  calloc : Option Sid
  /-- `accept`: a descriptor and the peer's address, or `-1`. -/
  accept : Option (ℕ × SockaddrIn)
  /-- `getsockname`. -/
  laddr : SockaddrIn
  /-- `time`. -/
  now : ℤ

/-- `free(s)`. -/
def World.free (w : World) (s : Sid) : Res World := do
  let _ ← w.deref s
  return { w with mem := Function.update w.mem s .freed }.log (.freed s)

/-- `zsocket_accept`: the connection, or `NULL`. `accept` only succeeds on a listening socket. -/
def zsocketAccept (server : Sid) (io : AcceptIo) (w : World) : Res (Option Sid × World) := do
  let z ← w.deref server
  ensure (!z.eof) (.assert .acceptEof)
  match io.calloc with
  | none => return (none, w)
  | some conn =>
      let w ← zsocketInit conn w
      match io.accept with
      | none =>
          -- the new object is neither EOF nor typed, so this teardown aborts
          let w ← _zsocketClose conn w
          let w ← w.free conn
          return (none, w)
      | some (fd, raddr) =>
          -- the kernel refuses `accept` on any other socket
          ensure (z.type = .server) .environment
          let w ← w.openFd fd
          let c ← w.deref conn
          let w := w.put conn { c with
            fd := fd, raddr := raddr, laddr := io.laddr, type := .connection, tick := io.now }
          let w ← w.listAdd conn
          let w := { w with status := w.status.countOpen .connection }
          return (some conn, (w.log (.opened conn)).log (.accepted server conn))

/-! ## Reading and writing -/

/-- `zsocket_read_start`. -/
def zsocketReadStart (s : Sid) (cb : Option Cb) (w : World) : Res World := do
  let z ← w.deref s
  ensure (!z.eof) (.assert .readStartEof)
  ensure (!z.readEnable) (.assert .readStartEnable)
  ensure cb.isSome (.assert .readStartCb)
  let w ← w.watchRead z.fd
  return w.put s { z with state := z.state ||| ZS_S_READ_ENABLE, readCb := cb }

/-- `zsocket_read_stop`. -/
def zsocketReadStop (s : Sid) (w : World) : Res World := do
  let z ← w.deref s
  ensure (!z.eof) (.assert .readStopEof)
  ensure z.readEnable (.assert .readStopEnable)
  let w ← w.unwatchRead z.fd
  return w.put s { z with state := z.state &&& ~~~ZS_S_READ_ENABLE, readCb := none }

/-- What `zsocket_write` is answered. -/
structure WriteIo where
  /-- Whether the `calloc` of the buffer structure succeeds. -/
  callocSelf : Bool
  /-- Whether the `calloc` of its block succeeds. -/
  callocRaw : Bool
  /-- The `realloc` of `qbuf_write`. -/
  realloc : Realloc

/-- `(size_t)-1`. -/
def SIZE_MAX : ℕ := 2 ^ 64 - 1

/-- `zsocket_write`: the `size_t` returned and the world after the call. -/
def zsocketWrite (s : Sid) (buf : List UInt8) (io : WriteIo) (w : World) : Res (ℕ × World) := do
  let z ← w.deref s
  ensure (!z.eof) (.assert .writeEof)
  if !z.writeEnable then
    ensure z.wbuf.isNone (.assert .writeWbuf)
    match qbufNew WRITE_BUF_SIZE io.callocSelf io.callocRaw with
    | none => return (SIZE_MAX, w)
    | some wbuf =>
        -- the first write allocates the buffer, and has the descriptor watched
        let w ← w.watchWrite z.fd
        let z := { z with wbuf := some wbuf, state := z.state ||| ZS_S_WRITE_ENABLE }
        let (r, wbuf) ← orFail (qbufWrite wbuf buf io.realloc) (.undefined .outOfBounds)
        return (r, w.put s { z with wbuf := some wbuf })
  else
    let wbuf ← orFail z.wbuf (.undefined .nullBuffer)
    let (r, wbuf) ← orFail (qbufWrite wbuf buf io.realloc) (.undefined .outOfBounds)
    return (r, w.put s { z with wbuf := some wbuf })

/-! ## Application data -/

/-- `zsocket_sdata_alloc`, given whether `calloc` succeeds. -/
def zsocketSdataAlloc (s : Sid) (size : ℕ) (calloc : Bool) (w : World) : Res World := do
  let z ← w.deref s
  if z.sdata.isSome then return w
  else return w.put s { z with sdata := if calloc then some (zeroed size) else none }

/-- `zsocket_sdata_free`. -/
def zsocketSdataFree (s : Sid) (w : World) : Res World := do
  let z ← w.deref s
  return w.put s { z with sdata := none }

/-- A program that writes the fields `tick` and `stall` of a socket. -/
def setTimeout (s : Sid) (tick stall : ℤ) (w : World) : Res World := do
  let z ← w.deref s
  return w.put s { z with tick := tick, stall := stall }

/-! ## Calls and callbacks -/

/-- One call a program makes, with what the call is answered. -/
inductive Api
  | init (s : Sid)
  | close (s : Sid) (cb : Option Cb)
  | connect (client : Sid) (addr : SockaddrIn) (cb : Option Cb) (io : ConnectIo)
  | listen (server : Sid) (addr : SockaddrIn) (cb : Option Cb) (io : ListenIo)
  | accept (server : Sid) (io : AcceptIo)
  | readStart (s : Sid) (cb : Option Cb)
  | readStop (s : Sid)
  | write (s : Sid) (buf : List UInt8) (io : WriteIo)
  | sdataAlloc (s : Sid) (size : ℕ) (calloc : Bool)
  | sdataFree (s : Sid)
  | setTimeout (s : Sid) (tick stall : ℤ)

/-- Make one call. -/
def Api.run (w : World) : Api → Res World
  | .init s => zsocketInit s w
  | .close s cb => zsocketClose s cb w
  | .connect client addr cb io => (·.2) <$> zsocketConnect client addr cb io w
  | .listen server addr cb io => (·.2) <$> zsocketListen server addr cb io w
  | .accept server io => (·.2) <$> zsocketAccept server io w
  | .readStart s cb => zsocketReadStart s cb w
  | .readStop s => zsocketReadStop s w
  | .write s buf io => (·.2) <$> zsocketWrite s buf io w
  | .sdataAlloc s size calloc => zsocketSdataAlloc s size calloc w
  | .sdataFree s => zsocketSdataFree s w
  | .setTimeout s tick stall => LibZio.setTimeout s tick stall w

/-- Make the calls of a callback, in order. None of them is `zsocket_loop`. -/
def runScript : List Api → World → Res World
  | [], w => .ok w
  | call :: calls, w => do
      let w ← call.run w
      runScript calls w

end LibZio
