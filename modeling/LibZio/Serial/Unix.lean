import LibZio.Foundation.Slice
import LibZio.Serial.Basic

/-! # The backend of `serial_unix.c`

Opening, reading, writing and closing a terminal line, and the table `_linux_serial_backend` that
the manager calls. The descriptor of a line that is not open is `-1`. -/

namespace LibZio

/-- `struct termios`, as far as `unix_serial_open` sets it. -/
structure Termios where
  speed : ℕ := 0
  cread : Bool := false
  clocal : Bool := false
  /-- The data bits that `CSIZE` selects; `CS5` is zero. -/
  csize : ℕ := 5
  cstopb : Bool := false
  parenb : Bool := false
  parodd : Bool := false
  inpck : Bool := false
  /-- `ICANON`, `ECHO`, `ECHOE` or `ISIG`. -/
  cooked : Bool := false
  /-- `IXON`, `IXOFF` or `IXANY`. -/
  flow : Bool := false
  opost : Bool := false
  vmin : ℕ := 0
  vtime : ℕ := 0
  deriving DecidableEq, Repr

/-- What `serial_rtu_t` holds on Unix. -/
structure UnixDev where
  oldTios : Termios
  s : ℤ
  deriving DecidableEq, Repr

/-- The descriptor of a port object. -/
abbrev Serial.s (ctx : Serial UnixDev) : ℤ := ctx.backendData.dev.s

/-- Write the descriptor. -/
def Serial.setS (ctx : Serial UnixDev) (s : ℤ) : Serial UnixDev :=
  { ctx with backendData := { ctx.backendData with dev := { ctx.backendData.dev with s := s } } }

/-- The baud rates that both platforms know. -/
def knownBauds : List ℤ := [110, 300, 600, 1200, 2400, 4800, 9600, 19200, 38400, 57600, 115200]

/-- The `switch` on the baud rate: an unknown one gives 9600. -/
def speedOf (baud : ℤ) : ℕ := if baud ∈ knownBauds then baud.toNat else 9600

/-- The `switch` on the data bits: anything else than 5, 6 and 7 gives 8. -/
def csizeOf (dataBit : UInt8) : ℕ :=
  if dataBit = 5 then 5 else if dataBit = 6 then 6 else if dataBit = 7 then 7 else 8

/-- The settings that `unix_serial_open` asks for. -/
def unixTermios {Dev : Type} (rtu : SerialRtu Dev) : Termios :=
  let tios : Termios := {}
  let tios := { tios with speed := speedOf rtu.baud }
  let tios := { tios with cread := true, clocal := true }
  let tios := { tios with csize := csizeOf rtu.dataBit }
  let tios :=
    if rtu.stopBit = 1 then { tios with cstopb := false } else { tios with cstopb := true }
  let tios :=
    if rtu.parity = 'N'.toUInt8 then { tios with parenb := false }
    else if rtu.parity = 'E'.toUInt8 then { tios with parenb := true, parodd := false }
    else { tios with parenb := true, parodd := true }
  let tios := { tios with cooked := false }
  let tios :=
    if rtu.parity = 'N'.toUInt8 then { tios with inpck := false } else { tios with inpck := true }
  { tios with flow := false, opost := false, vmin := 0, vtime := 0 }

/-! ## Opening and closing -/

/-- What `unix_serial_open` is answered. -/
structure UnixOpenAnswer where
  /-- `open`: a descriptor, or `-1`. -/
  fd : Option ℕ
  /-- `tcgetattr`, if it succeeds. -/
  tcgetattr : Option Termios
  /-- Whether `cfsetispeed` and `cfsetospeed` succeed. -/
  cfsetspeed : Bool
  /-- Whether `tcsetattr` succeeds. -/
  tcsetattr : Bool
  /-- `errno` after a failure. -/
  errno : ℤ
  deriving DecidableEq, Repr

/-- `unix_serial_open`, among the open descriptors `fds`. -/
def unixSerialOpen (answer : UnixOpenAnswer) (fds : List ℤ) (ctx : Serial UnixDev) :
    SerialRes (ℤ × Serial UnixDev × List (DevEvent Termios)) := do
  -- a line that is open is left alone
  if ctx.isOpen then return (0, ctx, [])
  match answer.fd with
  | none => return (-1, { ctx.setS (-1) with errCode := answer.errno }, [])
  | some fd =>
      ensure ((fd : ℤ) ∉ fds) .environment
      let rtu := ctx.backendData
      -- the result of `tcgetattr` is not read: a failure leaves the old settings as they were
      let dev := { oldTios := answer.tcgetattr.getD rtu.dev.oldTios, s := fd }
      let ctx := { ctx with backendData := { rtu with dev := dev } }
      let tios := unixTermios rtu
      -- a failure behind `open` closes the descriptor again
      if !answer.cfsetspeed then
        return (-1, { ctx.setS (-1) with errCode := answer.errno }, [.closed fd, .opened fd])
      if !answer.tcsetattr then
        return (-1, { ctx.setS (-1) with errCode := answer.errno },
          [.closed fd, .configured fd tios, .opened fd])
      return (0, { ctx with isOpen := true }, [.configured fd tios, .opened fd])

/-- What `unix_serial_close` is answered. -/
structure UnixCloseAnswer where
  /-- Whether `tcsetattr` succeeds. -/
  tcsetattr : Bool
  /-- `errno` after a failure. -/
  errno : ℤ
  deriving DecidableEq, Repr

/-- `unix_serial_close`. The result of `close` is not read. -/
def unixSerialClose (answer : UnixCloseAnswer) (ctx : Serial UnixDev) :
    ℤ × Serial UnixDev × List (DevEvent Termios) :=
  let old := ctx.backendData.dev.oldTios
  if ctx.s = -1 then (-1, ctx, [])
  else if !answer.tcsetattr then
    (-1, { ctx with errCode := answer.errno }, [.configured ctx.s old])
  else (0, { ctx.setS (-1) with isOpen := false }, [.closed ctx.s, .configured ctx.s old])

/-- `unix_serial_destory`, up to the two calls of `free`. -/
def unixSerialDestory (answer : UnixCloseAnswer) (ctx : Serial UnixDev) : List (DevEvent Termios) :=
  (unixSerialClose answer ctx).2.2

/-! ## Reading and writing -/

/-- What one iteration of `unix_serial_read` is answered. -/
structure UnixReadAnswer where
  /-- `select`. -/
  select : ℤ
  /-- `read`: the bytes, of which there are none at the end of the input, or `-1`. -/
  read : Option (List UInt8)
  deriving DecidableEq, Repr

/-- `unix_serial_set_timeout`, for what `select` returns. The sets are left out: the `FD_SET` of the
source needs the descriptor below `FD_SETSIZE`, and it is taken to be so. -/
def unixSerialSetTimeout (mtimeout select : ℤ) : ℤ :=
  if mtimeout ≤ 0 then 0 else if select = 0 then -1 else 0

/-- The loop of `unix_serial_read`: whether it returns from inside, the count and the buffer. -/
def unixReadLoop (len mtimeout : ℤ) :
    List UnixReadAnswer → ℕ → List UInt8 → SerialRes (Bool × ℕ × List UInt8)
  | [], readLen, buf =>
      if (readLen : ℤ) < len then .error .environment else .ok (false, readLen, buf)
  | answer :: answers, readLen, buf =>
      if (readLen : ℤ) < len then
        if 0 ≤ mtimeout ∧ unixSerialSetTimeout mtimeout answer.select = -1 then
          .ok (false, readLen, buf)
        else
          match answer.read with
          | none => .ok (true, readLen, buf)
          | some temp => do
              -- `read` gives at most what it is asked for, and the buffer on the stack has room
              ensure ((temp.length : ℤ) ≤ min (len - readLen) 1024) .environment
              if temp.length = 0 then return (true, readLen, buf)
              let buf ← orFail (store buf readLen temp) .outOfBounds
              unixReadLoop len mtimeout answers (readLen + temp.length) buf
      else .ok (false, readLen, buf)

/-- `unix_serial_read`: the result, the object and the caller's buffer after the call. -/
def unixSerialRead (len mtimeout : ℤ) (answers : List UnixReadAnswer) (errno : ℤ)
    (ctx : Serial UnixDev) (buf : List UInt8) : SerialRes (ℤ × Serial UnixDev × List UInt8) := do
  if !ctx.isOpen then return (-1, ctx, buf)
  if ctx.s = -1 then return (-1, ctx, buf)
  let (returned, readLen, buf) ← unixReadLoop len mtimeout answers 0 buf
  if returned then return (readLen, ctx, buf)
  if readLen ≤ 0 then return (-1, { ctx with errCode := errno }, buf)
  return (readLen, ctx, buf)

/-- `unix_serial_write`, where `write` returns `ret`. -/
def unixSerialWrite (ret errno : ℤ) (ctx : Serial UnixDev) : ℤ × Serial UnixDev :=
  if !ctx.isOpen then (-1, ctx)
  else if ctx.s = -1 then (-1, { ctx with errCode := errno })
  else if ret = -1 then (ret, { ctx with errCode := errno })
  else (ret, ctx)

/-! ## The ways through the functions, and the table -/

/-- The port object after `tcgetattr`. -/
def Serial.setOldTios (ctx : Serial UnixDev) (tios : Option Termios) : Serial UnixDev :=
  let dev := ctx.backendData.dev
  { ctx with backendData :=
      { ctx.backendData with dev := { dev with oldTios := tios.getD dev.oldTios } } }

/-- The ways through `unix_serial_open`. -/
inductive UnixOpens (answer : UnixOpenAnswer) (fds : List ℤ) (ctx : Serial UnixDev) :
    ℤ → Serial UnixDev → List (DevEvent Termios) → Prop
  /-- The line is open. -/
  | already (isOpen : ctx.isOpen = true) : UnixOpens answer fds ctx 0 ctx []
  /-- `open` fails. -/
  | noDevice (off : ctx.isOpen = false) (none : answer.fd = none) :
      UnixOpens answer fds ctx (-1) { ctx.setS (-1) with errCode := answer.errno } []
  /-- `cfsetispeed` or `cfsetospeed` fails. -/
  | noSpeed {fd : ℕ} (off : ctx.isOpen = false) (some : answer.fd = some fd)
      (fresh : (fd : ℤ) ∉ fds) :
      UnixOpens answer fds ctx (-1)
        { (ctx.setOldTios answer.tcgetattr).setS (-1) with errCode := answer.errno }
        [.closed fd, .opened fd]
  /-- `tcsetattr` fails. -/
  | noSettings {fd : ℕ} (off : ctx.isOpen = false) (some : answer.fd = some fd)
      (fresh : (fd : ℤ) ∉ fds) :
      UnixOpens answer fds ctx (-1)
        { (ctx.setOldTios answer.tcgetattr).setS (-1) with errCode := answer.errno }
        [.closed fd, .configured fd (unixTermios ctx.backendData), .opened fd]
  /-- The line is opened. -/
  | opened {fd : ℕ} (off : ctx.isOpen = false) (some : answer.fd = some fd)
      (fresh : (fd : ℤ) ∉ fds) :
      UnixOpens answer fds ctx 0
        { (ctx.setOldTios answer.tcgetattr).setS fd with isOpen := true }
        [.configured fd (unixTermios ctx.backendData), .opened fd]

/-- Every `unix_serial_open` takes one of its ways. -/
theorem unixSerialOpen_opens {answer : UnixOpenAnswer} {fds : List ℤ} {ctx ctx' : Serial UnixDev}
    {rc : ℤ} {es : List (DevEvent Termios)}
    (h : unixSerialOpen answer fds ctx = .ok (rc, ctx', es)) :
    UnixOpens answer fds ctx rc ctx' es := by
  unfold unixSerialOpen at h
  by_cases hopen : ctx.isOpen = true
  · rw [if_pos hopen] at h
    cases h
    exact .already hopen
  · rw [if_neg hopen] at h
    have off := eq_false_of_ne_true hopen
    cases hfd : answer.fd with
    | none =>
        simp only [hfd] at h
        cases h
        exact .noDevice off hfd
    | some fd =>
        simp only [hfd] at h
        obtain ⟨u, hfresh, h⟩ := bind_eq_ok.mp h
        have fresh := of_decide_eq_true (ensure_eq_ok.mp hfresh)
        cases hcf : answer.cfsetspeed with
        | false =>
            rw [hcf, Bool.not_false, if_pos rfl] at h
            cases h
            exact .noSpeed off hfd fresh
        | true =>
            rw [hcf, Bool.not_true, if_neg Bool.false_ne_true] at h
            cases htc : answer.tcsetattr with
            | false =>
                rw [htc, Bool.not_false, if_pos rfl] at h
                cases h
                exact .noSettings off hfd fresh
            | true =>
                rw [htc, Bool.not_true, if_neg Bool.false_ne_true] at h
                cases h
                exact .opened off hfd fresh

/-- `unix_serial_open` leaves alone what `serial_new` settled. -/
theorem unixSerialOpen_info {answer : UnixOpenAnswer} {fds : List ℤ} {ctx ctx' : Serial UnixDev}
    {rc : ℤ} {es : List (DevEvent Termios)}
    (h : unixSerialOpen answer fds ctx = .ok (rc, ctx', es)) : ctx'.info = ctx.info := by
  cases unixSerialOpen_opens h <;> rfl

/-- The ways through `unix_serial_close`. -/
inductive UnixCloses (answer : UnixCloseAnswer) (ctx : Serial UnixDev) :
    ℤ × Serial UnixDev × List (DevEvent Termios) → Prop
  /-- There is nothing to close. -/
  | idle (none : ctx.s = -1) : UnixCloses answer ctx (-1, ctx, [])
  /-- `tcsetattr` fails, and the line stays open. -/
  | stuck (some : ctx.s ≠ -1) (failed : answer.tcsetattr = false) :
      UnixCloses answer ctx (-1, { ctx with errCode := answer.errno },
        [.configured ctx.s ctx.backendData.dev.oldTios])
  /-- The line is closed. -/
  | closed (some : ctx.s ≠ -1) (restored : answer.tcsetattr = true) :
      UnixCloses answer ctx (0, { ctx.setS (-1) with isOpen := false },
        [.closed ctx.s, .configured ctx.s ctx.backendData.dev.oldTios])

/-- Every `unix_serial_close` takes one of its ways. -/
theorem unixSerialClose_closes (answer : UnixCloseAnswer) (ctx : Serial UnixDev) :
    UnixCloses answer ctx (unixSerialClose answer ctx) := by
  unfold unixSerialClose
  dsimp only
  by_cases hs : ctx.s = -1
  · rw [if_pos hs]
    exact .idle hs
  · rw [if_neg hs]
    cases htc : answer.tcsetattr with
    | false => exact .stuck hs htc
    | true => exact .closed hs htc

/-- `unix_serial_close` leaves alone what `serial_new` settled. -/
theorem unixSerialClose_info (answer : UnixCloseAnswer) (ctx : Serial UnixDev) :
    (unixSerialClose answer ctx).2.1.info = ctx.info := by
  have way := unixSerialClose_closes answer ctx
  generalize unixSerialClose answer ctx = out at way
  cases way <;> rfl

/-- `_linux_serial_backend`. -/
abbrev linuxSerialBackend : Backend where
  Dev := UnixDev
  Settings := Termios
  OpenAnswer := UnixOpenAnswer
  CloseAnswer := UnixCloseAnswer
  devname index := "/dev/ttyS" ++ toString index.toNat
  blank dev := { dev with s := -1 }
  openDev := unixSerialOpen
  closeDev := unixSerialClose
  destory := unixSerialDestory
  openDev_info := unixSerialOpen_info
  closeDev_info := unixSerialClose_info

end LibZio
