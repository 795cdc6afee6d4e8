import LibZio.Foundation.Slice
import LibZio.Serial.Unix

/-! # The backend of `serial_win.c`

Opening, reading, writing and closing a communications device, and the table `_win_serial_backend`.
The handle of a device that is not open is `INVALID_HANDLE_VALUE`. -/

namespace LibZio

/-- `INVALID_HANDLE_VALUE`. -/
def INVALID_HANDLE_VALUE : ℤ := -1

/-- `DCB`: the fields that `win32_serial_open` sets, and the others in one. -/
structure Dcb where
  baudRate : ℕ := 0
  byteSize : ℕ := 0
  /-- `ONESTOPBIT` or `TWOSTOPBITS`. -/
  stopBits : ℕ := 0
  /-- `NOPARITY`, `ODDPARITY` or `EVENPARITY`. -/
  parity : ℕ := 0
  fParity : Bool := false
  fTXContinueOnXoff : Bool := false
  fOutX : Bool := false
  fInX : Bool := false
  fBinary : Bool := false
  fAbortOnError : Bool := false
  others : ℕ := 0
  deriving DecidableEq, Repr

/-- What `serial_rtu_t` holds on Windows. -/
structure WinDev where
  fd : ℤ
  oldDcb : Dcb
  deriving DecidableEq, Repr

/-- The handle of a port object. -/
abbrev Serial.fd (ctx : Serial WinDev) : ℤ := ctx.backendData.dev.fd

/-- Write what the platform adds. -/
def Serial.setDev (ctx : Serial WinDev) (dev : WinDev) : Serial WinDev :=
  { ctx with backendData := { ctx.backendData with dev := dev } }

/-- Write the handle. -/
def Serial.setFd (ctx : Serial WinDev) (fd : ℤ) : Serial WinDev :=
  ctx.setDev { ctx.backendData.dev with fd := fd }

/-- The settings that `win32_serial_open` asks for, starting from the current ones. -/
def winDcb {Dev : Type} (rtu : SerialRtu Dev) (oldDcb : Dcb) : Dcb :=
  let dcb := oldDcb
  let dcb := { dcb with baudRate := speedOf rtu.baud }
  let dcb := { dcb with byteSize := csizeOf rtu.dataBit }
  let dcb := if rtu.stopBit = 1 then { dcb with stopBits := 0 } else { dcb with stopBits := 2 }
  let dcb :=
    if rtu.parity = 'N'.toUInt8 then { dcb with parity := 0, fParity := false }
    else if rtu.parity = 'E'.toUInt8 then { dcb with parity := 2, fParity := true }
    else { dcb with parity := 1, fParity := true }
  { dcb with
    fTXContinueOnXoff := true, fOutX := false, fInX := false, fBinary := true
    fAbortOnError := false }

/-! ## Opening and closing -/

/-- What `win32_serial_close` is answered. -/
structure WinCloseAnswer where
  /-- Whether `SetCommState` succeeds. -/
  setCommState : Bool
  /-- Whether `CloseHandle` succeeds. -/
  closeHandle : Bool
  /-- `GetLastError` after a failure. -/
  lastError : ℤ
  deriving DecidableEq, Repr

/-- `win32_serial_close`. -/
def win32SerialClose (answer : WinCloseAnswer) (ctx : Serial WinDev) :
    ℤ × Serial WinDev × List (DevEvent Dcb) :=
  let old := ctx.backendData.dev.oldDcb
  -- a port that is neither open nor has a handle is closed without a failure
  if ctx.isOpen ∨ INVALID_HANDLE_VALUE ≠ ctx.fd then
    if !answer.setCommState then
      (-1, { ctx with errCode := answer.lastError }, [.configured ctx.fd old])
    else if !answer.closeHandle then
      (-1, { ctx with errCode := answer.lastError }, [.configured ctx.fd old])
    else
      (0, { ctx.setFd INVALID_HANDLE_VALUE with isOpen := false },
        [.closed ctx.fd, .configured ctx.fd old])
  else (0, ctx, [])

/-- What `win32_serial_open` is answered. -/
structure WinOpenAnswer where
  /-- `CreateFileA`: a handle, or `INVALID_HANDLE_VALUE`. -/
  createFile : Option ℕ
  /-- `GetCommState`, if it succeeds. -/
  getCommState : Option Dcb
  /-- Whether `SetCommState` succeeds. -/
  setCommState : Bool
  /-- What the `win32_serial_close` after its failure is answered. -/
  close : WinCloseAnswer
  /-- `GetLastError` after a failure. -/
  lastError : ℤ
  deriving DecidableEq, Repr

/-- `win32_serial_open`, among the open handles `fds`. -/
def win32SerialOpen (answer : WinOpenAnswer) (fds : List ℤ) (ctx : Serial WinDev) :
    SerialRes (ℤ × Serial WinDev × List (DevEvent Dcb)) := do
  if ctx.isOpen then return (0, ctx, [])
  match answer.createFile with
  | none =>
      return (-1, { ctx.setFd INVALID_HANDLE_VALUE with errCode := answer.lastError }, [])
  | some fd =>
      ensure ((fd : ℤ) ∉ fds) .environment
      let rtu := ctx.backendData
      match answer.getCommState with
      | none =>
          return (-1, { ctx.setFd INVALID_HANDLE_VALUE with errCode := answer.lastError },
            [.closed fd, .opened fd])
      | some oldDcb =>
          let ctx := ctx.setDev { fd, oldDcb }
          let dcb := winDcb rtu oldDcb
          if !answer.setCommState then
            -- `win32_serial_close` goes by the handle, which is set by now
            let (_, ctx, es) :=
              win32SerialClose answer.close { ctx with errCode := answer.lastError }
            return (-1, ctx, es ++ [.configured fd dcb, .opened fd])
          return (0, { ctx with isOpen := true }, [.configured fd dcb, .opened fd])

/-- `win32_serial_destory`, up to the two calls of `free`. -/
def win32SerialDestory (answer : WinCloseAnswer) (ctx : Serial WinDev) : List (DevEvent Dcb) :=
  (win32SerialClose answer ctx).2.2

/-! ## Reading and writing -/

/-- What `win32_serial_read` is answered. -/
structure WinReadAnswer where
  /-- Whether `SetCommTimeouts` succeeds. -/
  setCommTimeouts : Bool
  /-- `ReadFile`: the bytes, if it succeeds. -/
  readFile : Option (List UInt8)
  /-- `GetLastError` after a failure. -/
  lastError : ℤ
  deriving DecidableEq, Repr

/-- `win32_serial_read`: the result, the object and the caller's buffer after the call. -/
def win32SerialRead (len mtimeout : ℤ) (answer : WinReadAnswer) (ctx : Serial WinDev)
    (buf : List UInt8) : SerialRes (ℤ × Serial WinDev × List UInt8) := do
  if !ctx.isOpen then return (-1, ctx, buf)
  -- the result of `win32_serial_set_timeout` is not read
  let ctx :=
    if 0 ≤ mtimeout ∧ answer.setCommTimeouts = false then { ctx with errCode := answer.lastError }
    else ctx
  match answer.readFile with
  | none => return (-1, { ctx with errCode := answer.lastError }, buf)
  | some data =>
      ensure ((data.length : ℤ) ≤ len) .environment
      let buf ← orFail (store buf 0 data) .outOfBounds
      return (data.length, ctx, buf)

/-- `win32_serial_write`, where `WriteFile` writes `retlen` bytes, or fails. -/
def win32SerialWrite (retlen : Option ℕ) (lastError : ℤ) (ctx : Serial WinDev) :
    ℤ × Serial WinDev :=
  if !ctx.isOpen then (-1, ctx)
  else
    match retlen with
    | some n => (n, ctx)
    | none => (-1, { ctx with errCode := lastError })

/-! ## The table -/

/-- `win32_serial_close` leaves alone what `serial_new` settled. -/
theorem win32SerialClose_info (answer : WinCloseAnswer) (ctx : Serial WinDev) :
    (win32SerialClose answer ctx).2.1.info = ctx.info := by
  unfold win32SerialClose
  dsimp only
  split
  · split
    · rfl
    · split <;> rfl
  · rfl

/-- `win32_serial_open` leaves alone what `serial_new` settled. -/
theorem win32SerialOpen_info {answer : WinOpenAnswer} {fds : List ℤ} {ctx ctx' : Serial WinDev}
    {rc : ℤ} {es : List (DevEvent Dcb)}
    (h : win32SerialOpen answer fds ctx = .ok (rc, ctx', es)) : ctx'.info = ctx.info := by
  unfold win32SerialOpen at h
  by_cases hopen : ctx.isOpen = true
  · rw [if_pos hopen] at h
    cases h
    rfl
  · rw [if_neg hopen] at h
    cases hfd : answer.createFile with
    | none =>
        simp only [hfd] at h
        cases h
        rfl
    | some fd =>
        simp only [hfd] at h
        obtain ⟨u, -, h⟩ := bind_eq_ok.mp h
        cases hget : answer.getCommState with
        | none =>
            simp only [hget] at h
            cases h
            rfl
        | some oldDcb =>
            simp only [hget] at h
            cases hset : answer.setCommState with
            | false =>
                rw [hset, Bool.not_false, if_pos rfl] at h
                cases h
                exact win32SerialClose_info ..
            | true =>
                rw [hset, Bool.not_true, if_neg Bool.false_ne_true] at h
                cases h
                rfl

/-- `_win_serial_backend`. -/
abbrev winSerialBackend : Backend where
  Dev := WinDev
  Settings := Dcb
  OpenAnswer := WinOpenAnswer
  CloseAnswer := WinCloseAnswer
  devname index := "COM" ++ toString index.toNat
  blank dev := { dev with fd := INVALID_HANDLE_VALUE }
  openDev := win32SerialOpen
  closeDev := win32SerialClose
  destory := win32SerialDestory
  openDev_info := win32SerialOpen_info
  closeDev_info := win32SerialClose_info

end LibZio
