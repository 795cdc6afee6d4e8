import LibZio.Foundation.Ledger
import LibZio.Foundation.Machine
import Mathlib.Algebra.Group.Int.Defs
import Mathlib.Algebra.Group.Nat.Defs
import Mathlib.Data.Int.Basic
import Mathlib.Logic.Function.Basic

/-! # The serial port manager of `serial_port.c`

The data of `serial_port.h` and the functions that acquire, open, close and release a port. A
`serial_t *` is a `Pid` that names one life of a port object, from `serial_new` to `free`; memory
that is allocated again starts a new identifier. The manager calls its platform through a table of
functions, `serial_backend_t`; the table is a parameter here, as it is in the source, and the
backends of the two platforms are its instances. One call runs at a time. -/

namespace LibZio

/-- Names one life of a `serial_t`. -/
abbrev Pid : Type := ℕ

/-- Why a run of the model stops. -/
inductive SerialFault
  /-- An object that is not live is accessed. -/
  | deadObject
  /-- An `int` is incremented at its maximum. -/
  | overflow
  /-- A copy leaves its buffer. -/
  | outOfBounds
  /-- The input is not an outcome the operating system or the allocator can produce. -/
  | environment
  deriving DecidableEq, Repr

/-- The outcome of a function of the library. -/
abbrev SerialRes (α : Type) : Type := Except SerialFault α

/-- `serial_rtu_t`, where `dev` is what the platform adds. -/
structure SerialRtu (Dev : Type) where
  device : String
  baud : ℤ
  dataBit : UInt8
  stopBit : UInt8
  parity : UInt8
  dev : Dev

/-- `struct _serial`. -/
structure Serial (Dev : Type) where
  debug : Bool
  isOpen : Bool
  errCode : ℤ
  shareMode : ℤ
  backendData : SerialRtu Dev

/-- What `serial_new` settles about a port. -/
structure PortInfo where
  device : String
  baud : ℤ
  parity : UInt8
  dataBit : UInt8
  stopBit : UInt8
  shareMode : ℤ
  deriving DecidableEq, Repr

/-- The part of a port object that stays as `serial_new` made it. -/
def Serial.info {Dev : Type} (ctx : Serial Dev) : PortInfo where
  device := ctx.backendData.device
  baud := ctx.backendData.baud
  parity := ctx.backendData.parity
  dataBit := ctx.backendData.dataBit
  stopBit := ctx.backendData.stopBit
  shareMode := ctx.shareMode

/-- What a backend does to the outside. -/
inductive DevEvent (Settings : Type)
  /-- The device is opened as `fd`. -/
  | opened (fd : ℤ)
  /-- The line settings of `fd` are set. -/
  | configured (fd : ℤ) (settings : Settings)
  /-- `fd` is closed. -/
  | closed (fd : ℤ)
  deriving DecidableEq, Repr

/-! ## The table of functions -/

/-- `serial_backend_t` and the code that a platform selects in `serial_new`: the functions that the
manager calls, with what the operating system answers them. They leave alone what `serial_new`
settled. -/
structure Backend where
  /-- What the platform adds to `serial_rtu_t`. -/
  Dev : Type
  /-- The line settings of the platform. -/
  Settings : Type
  /-- What the calls of `open` are answered. -/
  OpenAnswer : Type
  /-- What the calls of `close` are answered. -/
  CloseAnswer : Type
  /-- The device name of an index. -/
  devname : UInt8 → String
  /-- What `serial_new` sets of the fields the platform adds. -/
  blank : Dev → Dev
  /-- `open`, among the descriptors that are open. -/
  openDev : OpenAnswer → List ℤ → Serial Dev → SerialRes (ℤ × Serial Dev × List (DevEvent Settings))
  /-- `close`. -/
  closeDev : CloseAnswer → Serial Dev → ℤ × Serial Dev × List (DevEvent Settings)
  /-- `destory`, which frees the object at its end. -/
  destory : CloseAnswer → Serial Dev → List (DevEvent Settings)
  openDev_info : ∀ {answer fds ctx rc ctx' es}, openDev answer fds ctx = .ok (rc, ctx', es) →
    ctx'.info = ctx.info
  closeDev_info : ∀ answer ctx, (closeDev answer ctx).2.1.info = ctx.info

/-! ## The state -/

/-- The arguments of `serial_new`. -/
structure Request where
  index : UInt8
  baud : ℤ
  parity : UInt8
  dataBit : UInt8
  stopBit : UInt8
  shareMode : UInt8
  deriving DecidableEq, Repr

/-- A handle: a pointer that `serial_new` returned, to whom, and for which arguments. -/
structure Handle where
  holder : ℕ
  port : Pid
  asked : Request
  deriving DecidableEq, Repr

/-- `serial_manger_t`. The mutex is left to the model of the locks. -/
structure Manger where
  t : Pid
  refcount : ℤ
  opencount : ℤ
  deriving DecidableEq, Repr

/-- What the memory holds under an identifier. -/
inductive SerialSlot (Dev : Type)
  | unused
  | live (ctx : Serial Dev)
  | freed

/-- What the manager does to the outside, and the calls that change who holds and opens a port; the
latter are recorded around the functions, not by them. -/
inductive SerialEvent (B : Backend)
  /-- `serial_new` returned the handle `k`. -/
  | acquired (k : Handle)
  /-- `serial_destory` is called with the handle `k`. -/
  | released (k : Handle)
  /-- `serial_open` succeeded on the handle `k`, with `dev` in the port object. -/
  | opened (k : Handle) (dev : B.Dev)
  /-- `serial_close` is called with the handle `k`. -/
  | closed (k : Handle)
  /-- `ctx->backend->close(ctx)` is called from `serial_close`. -/
  | closing (p : Pid)
  /-- A backend function called on `p` acts on the device. -/
  | device (p : Pid) (e : DevEvent B.Settings)
  /-- `p` is freed. -/
  | freed (p : Pid)

variable {B : Backend}

/-- Handles are acquired by `serial_new` and released by `serial_destory`. -/
def SerialEvent.onHandles : SerialEvent B → Entry Handle
  | .acquired k => .acquire k
  | .released k => .release k
  | _ => .neither

/-- Descriptors are acquired and released by the backend. -/
def SerialEvent.onFds : SerialEvent B → Entry ℤ
  | .device _ (.opened fd) => .acquire fd
  | .device _ (.closed fd) => .release fd
  | _ => .neither

/-- The uses of the port `p` are acquired by `serial_open` and released by `serial_close`. -/
def SerialEvent.onUses (p : Pid) : SerialEvent B → Entry Handle
  | .opened k _ => if k.port = p then .acquire k else .neither
  | .closed k => if k.port = p then .release k else .neither
  | _ => .neither

/-- Whether `p` is freed. -/
def SerialEvent.frees (p : Pid) : SerialEvent B → Bool
  | .freed q => q = p
  | _ => false

/-- The list `serial_mangers`, the memory of the port objects, and the outside. -/
structure SerialWorld (B : Backend) where
  /-- From `serial_mangers.next` on. -/
  mangers : List Manger := []
  mem : Pid → SerialSlot B.Dev := fun _ => .unused
  /-- What happened so far, newest first. -/
  trace : List (SerialEvent B) := []

/-- The object that the memory holds behind a pointer. -/
def derefIn {Dev : Type} (mem : Pid → SerialSlot Dev) (p : Pid) : SerialRes (Serial Dev) :=
  match mem p with
  | .live ctx => .ok ctx
  | _ => .error .deadObject

/-- The loop of `find_serial`. -/
def findIn {Dev : Type} (mem : Pid → SerialSlot Dev) (device : String) :
    List Manger → SerialRes (Option Manger)
  | [] => .ok none
  | pos :: rest => do
      let ctx ← derefIn mem pos.t
      if ctx.backendData.device = device then return some pos
      else findIn mem device rest

namespace SerialWorld

/-- The handles that are out. -/
abbrev handles (w : SerialWorld B) : List Handle := Ledger.held SerialEvent.onHandles w.trace

/-- All handles that ever were out. -/
abbrev granted (w : SerialWorld B) : List Handle := Ledger.acquired SerialEvent.onHandles w.trace

/-- The descriptors that are open. -/
abbrev openFds (w : SerialWorld B) : List ℤ := Ledger.held SerialEvent.onFds w.trace

/-- The successful opens of the port `p` that are not yet closed. -/
abbrev uses (w : SerialWorld B) (p : Pid) : List Handle :=
  Ledger.held (SerialEvent.onUses p) w.trace

/-- The object behind a pointer. -/
def deref (w : SerialWorld B) (p : Pid) : SerialRes (Serial B.Dev) := derefIn w.mem p

/-- Write an object. -/
def put (w : SerialWorld B) (p : Pid) (ctx : Serial B.Dev) : SerialWorld B :=
  { w with mem := Function.update w.mem p (.live ctx) }

/-- `free`. -/
def free (w : SerialWorld B) (p : Pid) : SerialWorld B :=
  { w with mem := Function.update w.mem p .freed, trace := .freed p :: w.trace }

/-- Record an event. -/
def log (w : SerialWorld B) (e : SerialEvent B) : SerialWorld B := { w with trace := e :: w.trace }

/-- Record what a backend function did, given newest first. -/
def logDev (w : SerialWorld B) (p : Pid) (es : List (DevEvent B.Settings)) : SerialWorld B :=
  { w with trace := es.map (SerialEvent.device p) ++ w.trace }

/-- Write the entry of a port object. -/
def putManger (w : SerialWorld B) (sm : Manger) : SerialWorld B :=
  { w with mangers := w.mangers.map fun m => if m.t = sm.t then sm else m }

/-- `find_serial`. -/
def findSerial (w : SerialWorld B) (device : String) : SerialRes (Option Manger) :=
  findIn w.mem device w.mangers

end SerialWorld

/-! ## The functions -/

/-- `++n` on an `int`. -/
def incr (n : ℤ) : SerialRes ℤ := if n < 2 ^ 31 - 1 then .ok (n + 1) else .error .overflow

/-- The parities that `serial_new` accepts. -/
def parityKnown (parity : UInt8) : Bool :=
  parity = 'N'.toUInt8 || parity = 'E'.toUInt8 || parity = 'O'.toUInt8

/-- What `serial_new` is answered. -/
structure NewAnswer (B : Backend) where
  /-- `malloc`: the new object. -/
  ptr : Pid
  /-- What the memory of the new object holds. -/
  garbage : Serial B.Dev
  /-- What `destory` is answered where it is called. -/
  close : B.CloseAnswer

/-- `add_serial`. -/
def addSerial (serial : Pid) (w : SerialWorld B) : SerialWorld B :=
  { w with mangers := { t := serial, refcount := 1, opencount := 0 } :: w.mangers }

/-- `serial_new`. -/
def serialNew (asked : Request) (answer : NewAnswer B) (w : SerialWorld B) :
    SerialRes (Option Pid × SerialWorld B) := do
  let devname := B.devname asked.index
  match ← w.findSerial devname with
  | some sm =>
      let t ← w.deref sm.t
      let rtu := t.backendData
      -- both sides have to share, and with the same settings
      if asked.shareMode = 0 ∨ t.shareMode = 0 then return (none, w)
      if rtu.baud ≠ asked.baud ∨ rtu.parity ≠ asked.parity ∨ rtu.dataBit ≠ asked.dataBit ∨
          rtu.stopBit ≠ asked.stopBit then return (none, w)
      let refcount ← incr sm.refcount
      return (some sm.t, w.putManger { sm with refcount := refcount })
  | none =>
      match w.mem answer.ptr with
      | .unused =>
          -- `malloc` leaves the fields unset, and `destory` sees them so if the parity is unknown
          let ctx := answer.garbage
          let rtu := { ctx.backendData with device := devname, baud := asked.baud }
          if !parityKnown asked.parity then
            let es := B.destory answer.close { ctx with backendData := rtu }
            return (none, (w.logDev answer.ptr es).free answer.ptr)
          let rtu := { rtu with
            parity := asked.parity, dataBit := asked.dataBit, stopBit := asked.stopBit
            dev := B.blank rtu.dev }
          let ctx : Serial B.Dev :=
            { debug := false, isOpen := false, errCode := 0, shareMode := asked.shareMode.toNat
              backendData := rtu }
          return (some answer.ptr, addSerial answer.ptr (w.put answer.ptr ctx))
      | _ => .error .environment

/-- `serial_open`. -/
def serialOpen (p : Pid) (answer : B.OpenAnswer) (w : SerialWorld B) :
    SerialRes (ℤ × SerialWorld B) := do
  let ctx ← w.deref p
  match ← w.findSerial ctx.backendData.device with
  | none => return (-1, w)
  | some sm =>
      -- a port that is open is only counted
      if 0 < sm.opencount then
        let opencount ← incr sm.opencount
        let w := w.putManger { sm with opencount := opencount }
        return (0, w.put p { ctx with isOpen := true })
      let (rc, ctx, es) ← B.openDev answer w.openFds ctx
      let w := (w.put p ctx).logDev p es
      if rc = 0 then
        let opencount ← incr sm.opencount
        let w := w.putManger { sm with opencount := opencount }
        return (0, w.put p { ctx with isOpen := true })
      return (-1, w)

/-- `serial_close`. -/
def serialClose (p : Pid) (answer : B.CloseAnswer) (w : SerialWorld B) :
    SerialRes (ℤ × SerialWorld B) := do
  let ctx ← w.deref p
  match ← w.findSerial ctx.backendData.device with
  | none => return (-1, w)
  | some sm =>
      -- the count does not go below `0`, at which the backend is asked
      let sm := if 0 < sm.opencount then { sm with opencount := sm.opencount - 1 } else sm
      let w := w.putManger sm
      if sm.opencount = 0 then
        let w := w.log (.closing p)
        let (rc, ctx, es) := B.closeDev answer ctx
        return (rc, (w.put p ctx).logDev p es)
      return (0, w)

/-- `serial_destory`. -/
def serialDestory (p : Pid) (answer : B.CloseAnswer) (w : SerialWorld B) :
    SerialRes (SerialWorld B) := do
  let ctx ← w.deref p
  match ← w.findSerial ctx.backendData.device with
  -- without an entry the object is freed, and the backend is not asked
  | none => return w.free p
  | some sm =>
      let sm := if 0 < sm.refcount then { sm with refcount := sm.refcount - 1 } else sm
      let w := w.putManger sm
      if sm.refcount = 0 then
        let w := { w with mangers := w.mangers.filter fun m => m.t ≠ sm.t }
        return (w.logDev p (B.destory answer ctx)).free p
      return w

/-! ## The record of handles and uses

The functions above know objects only. Who holds a port and who has it open is put on record here,
from the arguments and the results of the calls and from nothing that their bodies do. -/

/-- `serial_new` called by `holder`: a port that is returned is a handle from then on. -/
def serialNewRecord (holder : ℕ) (asked : Request) (answer : NewAnswer B) (w : SerialWorld B) :
    SerialRes (Option Pid × SerialWorld B) := do
  let (r, w) ← serialNew asked answer w
  match r with
  | some p => return (some p, w.log (.acquired ⟨holder, p, asked⟩))
  | none => return (none, w)

/-- `serial_open` called with the handle `k`: where it returns `0` the port is in use. -/
def serialOpenRecord (k : Handle) (answer : B.OpenAnswer) (w : SerialWorld B) :
    SerialRes (ℤ × SerialWorld B) := do
  let (rc, w) ← serialOpen k.port answer w
  if rc = 0 then
    let ctx ← w.deref k.port
    return (rc, w.log (.opened k ctx.backendData.dev))
  else return (rc, w)

/-- `serial_close` called with the handle `k`: the use ends with the call, whatever it returns. -/
def serialCloseRecord (k : Handle) (answer : B.CloseAnswer) (w : SerialWorld B) :
    SerialRes (ℤ × SerialWorld B) :=
  serialClose k.port answer (w.log (.closed k))

/-- `serial_destory` called with the handle `k`, which is given back with the call. -/
def serialDestoryRecord (k : Handle) (answer : B.CloseAnswer) (w : SerialWorld B) :
    SerialRes (SerialWorld B) :=
  serialDestory k.port answer (w.log (.released k))

/-! ## The manager as a machine -/

/-- One call of the manager, with what the outside answers. -/
inductive SerialCall (B : Backend)
  | new (holder : ℕ) (asked : Request) (answer : NewAnswer B)
  | openPort (k : Handle) (answer : B.OpenAnswer)
  | closePort (k : Handle) (answer : B.CloseAnswer)
  | destory (k : Handle) (answer : B.CloseAnswer)

/-- Run a call, on record. -/
def SerialCall.run : SerialCall B → SerialWorld B → SerialRes (SerialWorld B)
  | .new holder asked answer, w => Prod.snd <$> serialNewRecord holder asked answer w
  | .openPort k answer, w => Prod.snd <$> serialOpenRecord k answer w
  | .closePort k answer, w => Prod.snd <$> serialCloseRecord k answer w
  | .destory k answer, w => serialDestoryRecord k answer w

/-- The manager and its callers, from the start of the program on. -/
def serialPorts (B : Backend) : Machine (SerialWorld B) (SerialCall B) SerialFault where
  init := {}
  step w c := c.run w

end LibZio
