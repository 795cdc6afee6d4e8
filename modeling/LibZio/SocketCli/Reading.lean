import LibZio.Foundation.Iteration
import LibZio.SocketCli.Basic
import Mathlib.Data.List.GetD

/-! # How a client reads

A translation of the functions of `socket_cli.c` that read: `__select_out`, `__read_tcp`,
`__read_tcp_all` and `__clean_tcp`. What the socket does is a parameter, with a state of its own, so
that the code can be run against any peer. A loop is run for a number of rounds, and a function is
`none` where it does not return within them. What is printed is left out. -/

namespace LibZio

/-- A connected socket as the system calls show it, with states in `σ`. -/
structure SocketIo (σ : Type) where
  /-- `select` for reading, with the `timeval` `tvSec`, `tvUsec`: the value returned. -/
  select : (tvSec tvUsec : ℤ) → σ → ℤ × σ
  /-- `recv` of at most `len` bytes: the bytes, or `none` for `-1`. A call that never returns is
  `none`. -/
  recv : (len : ℕ) → σ → Option (Option (List UInt8) × σ)

/-- The memory behind a `char *`, by the offset. -/
abbrev Buf : Type := ℕ → UInt8

/-- Bytes are stored from the offset `pos` on. -/
def Buf.write (buf : Buf) (pos : ℕ) (bytes : List UInt8) : Buf := fun j =>
  if pos ≤ j then bytes.getD (j - pos) (buf j) else buf j

/-- The first `n` bytes. -/
def Buf.front (buf : Buf) (n : ℕ) : List UInt8 := (List.range n).map buf

/-- What is written behind the front extends it. -/
theorem Buf.front_write (buf : Buf) (n : ℕ) (bytes : List UInt8) :
    (buf.write n bytes).front (n + bytes.length) = buf.front n ++ bytes := by
  have hlen : (buf.front n).length = n := by simp [Buf.front]
  refine List.ext_getElem (by simp [Buf.front]) fun j hj _ => ?_
  have hwritten : ((buf.write n bytes).front (n + bytes.length))[j] = buf.write n bytes j := by
    simp [Buf.front]
  rw [hwritten]
  by_cases hn : j < n
  · rw [Buf.write, if_neg (by omega), List.getElem_append_left (hlen.symm ▸ hn)]
    simp [Buf.front]
  · have hlt : j - n < bytes.length := by
      have : j < n + bytes.length := by simpa [Buf.front] using hj
      omega
    rw [Buf.write, if_pos (by omega), List.getElem_append_right (by omega),
      List.getD_eq_getElem _ _ hlt]
    simp [hlen]

variable {σ : Type}

/-! ## The functions -/

/-- `__select_out`, where `errno` is what `__get_cur_err` reads. The sets are left out: the `FD_SET`
of the source needs the descriptor below `FD_SETSIZE`, and it is taken to be so. -/
def selectOut (net : SocketIo σ) (errno timeout : ℤ) (s : SocketCli) (io : σ) : ℤ × SocketCli × σ :=
  if timeout = 0 then (1, s, io)
  else
    let (ret, io) := net.select (timeout.tdiv 1000) (timeout.tmod 1000 * 1000) io
    -- a failure of `select` is taken for a readable socket
    if ret = 0 then (-1, { s with errCode := errno }, io) else (0, s, io)

/-- What a read leaves. -/
structure ReadResult (σ : Type) where
  /-- The value returned. -/
  ret : ℤ
  cli : SocketCli
  buf : Buf
  io : σ

/-- `__read_tcp`. -/
def readTcp (net : SocketIo σ) (errno : ℤ) (len : ℕ) (timeout : ℤ) (s : SocketCli) (buf : Buf)
    (io : σ) : Option (ReadResult σ) :=
  if !s.isConnect then some ⟨-1, s, buf, io⟩
  else if s.async ≠ 0 then some ⟨-1, s, buf, io⟩
  else
    let (rc, s, io) := selectOut net errno timeout s io
    if rc = -1 then some ⟨-1, s, buf, io⟩
    else
      match net.recv len io with
      | none => none
      | some (none, io) => some ⟨-1, { s with errCode := errno }, buf, io⟩
      | some (some bytes, io) => some ⟨bytes.length, s, buf.write 0 bytes, io⟩

/-- The variables of the loop in `__read_tcp_all`. -/
structure ReadLoop (σ : Type) where
  readLen : ℕ
  cli : SocketCli
  buf : Buf
  io : σ

/-- One round of the loop in `__read_tcp_all`. -/
def readTcpRound (net : SocketIo σ) (errno : ℤ) (len : ℕ) (timeout : ℤ) (l : ReadLoop σ) :
    Option (ReadLoop σ ⊕ ReadResult σ) :=
  if l.readLen < len then
    let (rc, s, io) := selectOut net errno timeout l.cli l.io
    if rc = -1 then some (.inr ⟨l.readLen, s, l.buf, io⟩)
    else
      match net.recv (len - l.readLen) io with
      | none => none
      | some (none, io) => some (.inr ⟨l.readLen, s, l.buf, io⟩)
      -- no byte at the end of the stream is not told from a byte more
      | some (some bytes, io) =>
          some (.inl ⟨l.readLen + bytes.length, s, l.buf.write l.readLen bytes, io⟩)
  else some (.inr ⟨l.readLen, l.cli, l.buf, l.io⟩)

/-- `__read_tcp_all`. It begins with the statements of `__read_tcp`. -/
def readTcpAll (net : SocketIo σ) (errno : ℤ) (len : ℕ) (timeout : ℤ) (fuel : ℕ) (s : SocketCli)
    (buf : Buf) (io : σ) : Option (ReadResult σ) := do
  let r ← readTcp net errno len timeout s buf io
  if r.ret = -1 then return r
  else iterate (readTcpRound net errno len timeout) fuel ⟨r.ret.toNat, r.cli, r.buf, r.io⟩

/-- One round of the loop in `__clean_tcp`. The sets are left out, as in `selectOut`: the descriptor
is taken to be below `FD_SETSIZE`, and the set given to `select` holds the socket in every round,
since the loop goes on only where `select` has left it there. -/
def cleanTcpRound (net : SocketIo σ) (io : σ) : Option (σ ⊕ σ) :=
  let (nRet, io) := net.select 0 0 io
  if nRet = 0 then some (.inr io)
  else
    match net.recv 1 io with
    | none => none
    -- the result of `recv` is not read
    | some (_, io) => some (.inl io)

/-- `__clean_tcp`: the value returned, and the socket. -/
def cleanTcp (net : SocketIo σ) (fuel : ℕ) (s : SocketCli) (io : σ) : Option (ℤ × σ) :=
  if !s.isConnect then some (-1, io)
  else if s.async = 0 then some (0, io)
  else do
    let io ← iterate (cleanTcpRound net) fuel io
    return (0, io)

/-- `socket_read`. -/
def socketRead (net : SocketIo σ) (errno : ℤ) (len : ℕ) (timeout : ℤ) (s : SocketCli) (buf : Buf)
    (io : σ) : Option (ReadResult σ) :=
  readTcp net errno len timeout s buf io

/-- `socket_read_all`. -/
def socketReadAll (net : SocketIo σ) (errno : ℤ) (len : ℕ) (timeout : ℤ) (fuel : ℕ) (s : SocketCli)
    (buf : Buf) (io : σ) : Option (ReadResult σ) :=
  readTcpAll net errno len timeout fuel s buf io

/-- `socket_clean`. -/
def socketClean (net : SocketIo σ) (fuel : ℕ) (s : SocketCli) (io : σ) : Option (ℤ × σ) :=
  cleanTcp net fuel s io

/-! ## In front of the loop -/

variable {net : SocketIo σ} {errno timeout : ℤ} {len : ℕ} {s : SocketCli} {buf : Buf} {io : σ}
  {r : ReadResult σ}

/-- A read that fails in front of the loop fails at once. -/
theorem readTcpAll_failed (h : readTcp net errno len timeout s buf io = some r) (hr : r.ret = -1)
    (fuel : ℕ) : readTcpAll net errno len timeout fuel s buf io = some r := by
  rw [readTcpAll, h]
  exact if_pos hr

/-- A read that takes bytes in front of the loop goes on with it. -/
theorem readTcpAll_loop (h : readTcp net errno len timeout s buf io = some r) (hr : r.ret ≠ -1)
    (fuel : ℕ) : readTcpAll net errno len timeout fuel s buf io =
      iterate (readTcpRound net errno len timeout) fuel ⟨r.ret.toNat, r.cli, r.buf, r.io⟩ := by
  rw [readTcpAll, h]
  exact if_neg hr

/-- A client that is not connected reads nothing. -/
theorem readTcp_off (h : s.isConnect = false) :
    readTcp net errno len timeout s buf io = some ⟨-1, s, buf, io⟩ :=
  if_pos (by rw [h]; rfl)

/-- An asynchronous client reads nothing. -/
theorem readTcp_async (h : s.async ≠ 0) :
    readTcp net errno len timeout s buf io = some ⟨-1, s, buf, io⟩ := by
  cases hon : s.isConnect with
  | false => exact readTcp_off hon
  | true => rw [readTcp, if_neg (by rw [hon]; decide), if_pos h]

/-! ## A client for concrete runs -/

/-- A client that `socket_connect` has connected, with the descriptor `3`. -/
def connectedCli (async : ℤ) : SocketCli where
  debug := false
  isConnect := true
  errCode := 0
  async := async
  conTimeout := 3000
  backendData := { recvCb := none, tId := none, socketId := 3, remoteAddr := ⟨7, 8000⟩ }

theorem connectedCli_connected (async : ℤ) : ∃ w,
    socketConnect ⟨some 3, true, 0⟩ (socketCliNew ⟨7, 8000⟩ async 3000) = .ok (0, w) ∧
      w.cli = some (connectedCli async) :=
  ⟨_, rfl, rfl⟩

end LibZio
